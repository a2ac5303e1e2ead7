import RubySig.Proofs.OutlineSites
import RubySig.Proofs.StatementShape

/-!
# The entries of an outline, statement by statement

An outline threads the visibility in force through a body and goes down into the bodies of its
statements on the way. Here its result is put into closed form: it has one entry for each statement
that declares something, in the order of the paths, with an owner that depends only on the classes
and modules around the statement and a visibility that depends only on the statements of the same
body up to it. Nothing that was gone through before, outside or inside those, is left in an entry.
-/

namespace RubySig.Outline

open RubySig.Rbs
open RubySig.Ruby

/-- The visibility of the last marker among statements, public if there is none. -/
def inForce (source : Source) (nodes : List SyntaxTree) : Visibility :=
  (nodes.filterMap (marker? source)).getLast?.getD .pub

/-- The owner inside class and module statements, the outermost first. -/
def ownerOf (source : Source) (scopes : List SyntaxTree) : Option String :=
  scopes.foldl (fun owner scope => some (qualify owner (scope.fieldText source "name"))) none

/-- The entry of a statement, if it declares something. -/
def entryAt? (ctx : Context) (site : Site) : Option Entry :=
  (declaration? ctx site.body.mode site.statement).value.map fun declaration =>
    ⟨declaration, ownerOf ctx.source site.body.scopes,
      inForce ctx.source (site.body.node.namedChildren.take (site.index + 1))⟩

/-- The entries that the outline of a tree has for one of its bodies. -/
def Body.entries (ctx : Context) (body : Body) : List Entry :=
  (statements ctx (ownerOf ctx.source body.scopes) body.mode .pub body.node.children).value

/-- One more statement changes the visibility in force only if it is a marker. -/
theorem inForce_append_singleton (source : Source) (nodes : List SyntaxTree) (t : SyntaxTree) :
    inForce source (nodes ++ [t]) = (marker? source t).getD (inForce source nodes) := by
  cases h : marker? source t <;> simp [inForce, h]

/-- One more class or module qualifies the owner by its name. -/
theorem ownerOf_append_singleton (source : Source) (scopes : List SyntaxTree) (t : SyntaxTree) :
    ownerOf source (scopes ++ [t]) =
      some (qualify (ownerOf source scopes) (t.fieldText source "name")) := by
  simp [ownerOf]

/-- The types of the statements that open a body. -/
theorem type_of_opens {t : SyntaxTree} (h : opensScope t = true ∨ opensSingleton t = true) :
    t.type = "class" ∨ t.type = "module" ∨ t.type = "singleton_class" := by
  simpa [opensScope, opensSingleton, or_assoc] using h

/-- A statement that opens a body declares nothing itself. -/
theorem declaration?_value_of_opens (ctx : Context) (mode : Mode) (t : SyntaxTree)
    (h : opensScope t = true ∨ opensSingleton t = true) : (declaration? ctx mode t).value = none := by
  cases mode <;> rcases type_of_opens h with htype | htype | htype <;>
    simp [declaration?, otherDeclaration, SyntaxTree.isDefinition, SyntaxTree.isComment, htype]

/-- A statement that opens a body is no marker. -/
theorem marker?_of_opens (source : Source) (t : SyntaxTree)
    (h : opensScope t = true ∨ opensSingleton t = true) : marker? source t = none := by
  rcases type_of_opens h with htype | htype | htype <;> simp [marker?, htype]

/-- A marker changes the visibility in force to its own, every other statement keeps it. -/
theorem visibilityAfter_declaration? (ctx : Context) (mode : Mode) (visibility : Visibility)
    (t : SyntaxTree) :
    (declaration? ctx mode t).value.elim visibility (visibilityAfter visibility) =
      (marker? ctx.source t).getD visibility := by
  cases hmarker : marker? ctx.source t with
  | some marked => rw [(Declares.marker marked hmarker).run]; rfl
  | none =>
    -- A tagged definition is a call to the same words, but it leaves the visibility as it was.
    cases hd : (declaration? ctx mode t).value with
    | none => rfl
    | some d =>
      cases declaration?_sound hd with
      | marker marked h => rw [hmarker] at h; contradiction
      | method | tagged | aliasing | mixin | attr => rfl

/-- What a statement that opens no body contributes. -/
theorem leaf_value (ctx : Context) (owner : Option String) (mode : Mode) (visibility : Visibility)
    (t : SyntaxTree) :
    (leaf ctx owner mode visibility t).value =
      (((declaration? ctx mode t).value.map fun declaration =>
          ⟨declaration, owner, (marker? ctx.source t).getD visibility⟩).toList,
        (marker? ctx.source t).getD visibility) := by
  rw [← visibilityAfter_declaration? ctx mode visibility t]
  simp only [leaf, Logged.value_bind]
  cases (declaration? ctx mode t).value <;> rfl

/-- The three ways to go on with a statement, told from its node. -/
theorem statement_eq (ctx : Context) (owner : Option String) (mode : Mode) (visibility : Visibility)
    (t : SyntaxTree) :
    statement ctx owner mode visibility t =
      if opensScope t then do
        let entries ← bodyOf ctx (some (qualify owner (t.fieldText ctx.source "name"))) .plain t.children
        return (entries, visibility)
      else if opensSingleton t then
        if isOfSelf t then do
          let entries ← bodyOf ctx owner .singleton t.children
          return (entries, visibility)
        else do
          Logged.tell (.foreignSingletonSkipped t.line)
          return ([], visibility)
      else leaf ctx owner mode visibility t := by
  cases t
  rw [statement]

/-- The statement as one step: it contributes its own entry and then the entries of the body that
it opens, and leaves the visibility that it marks. -/
theorem statement_value (ctx : Context) (body : Body) (index : Nat) (visibility : Visibility)
    (t : SyntaxTree) :
    (statement ctx (ownerOf ctx.source body.scopes) body.mode visibility t).value =
      (((declaration? ctx body.mode t).value.map fun declaration =>
          ⟨declaration, ownerOf ctx.source body.scopes, (marker? ctx.source t).getD visibility⟩).toList ++
          (body.opened? index t).elim [] (Body.entries ctx),
        (marker? ctx.source t).getD visibility) := by
  rw [statement_eq, ← ownerOf_append_singleton]
  cases hscope : opensScope t with
  | true =>
    simp only [if_true, bodyOf_children, declaration?_value_of_opens ctx body.mode t (.inl hscope),
      marker?_of_opens ctx.source t (.inl hscope), Body.opened?, Level.inside?, hscope]
    cases t.child? "body" <;> rfl
  | false =>
    cases hsingleton : opensSingleton t with
    | false =>
      have hopened : body.opened? index t = none := by
        simp [Body.opened?, Level.inside?, hscope, hsingleton]
      simp [hopened, leaf_value]
    | true =>
      simp only [if_true, Bool.false_eq_true, if_false, bodyOf_children,
        declaration?_value_of_opens ctx body.mode t (.inr hsingleton),
        marker?_of_opens ctx.source t (.inr hsingleton), Body.opened?, Level.inside?, hscope,
        hsingleton, Bool.true_and]
      cases isOfSelf t with
      | false => rfl
      | true => cases t.child? "body" <;> rfl

/-- The rest of a body as a run: each of its statements contributes under the visibility of the last
marker up to it. -/
theorem statements_value (ctx : Context) (body : Body) (earlier nodes : List SyntaxTree)
    (hsplit : body.node.namedChildren = earlier ++ nodes.filter (·.named)) :
    (statements ctx (ownerOf ctx.source body.scopes) body.mode (inForce ctx.source earlier) nodes).value =
      ((nodes.filter (·.named)).zipIdx earlier.length).flatMap fun place =>
        (entryAt? ctx ⟨body, place.2, place.1⟩).toList ++
          (body.opened? place.2 place.1).elim [] (Body.entries ctx) := by
  -- `earlier` grows by the statement just passed, so that it always says where in the body we are.
  induction nodes generalizing earlier with
  | nil => simp [statements]
  | cons t rest ih =>
    cases hnamed : t.named with
    | false =>
      have hfilter : (t :: rest).filter (·.named) = rest.filter (·.named) := by simp [hnamed]
      rw [hfilter] at hsplit ⊢
      rw [← ih earlier hsplit, statements, if_neg (by simp [hnamed])]
    | true =>
      have hfilter : (t :: rest).filter (·.named) = t :: rest.filter (·.named) := by simp [hnamed]
      rw [hfilter] at hsplit ⊢
      have hsplit' : body.node.namedChildren = (earlier ++ [t]) ++ rest.filter (·.named) := by
        rw [hsplit, List.append_assoc, List.singleton_append]
      have htake : body.node.namedChildren.take (earlier.length + 1) = earlier ++ [t] := by
        rw [hsplit', List.take_left' (by simp)]
      have hrest := ih (earlier ++ [t]) hsplit'
      rw [inForce_append_singleton, List.length_append, List.length_singleton] at hrest
      rw [statements, if_pos hnamed, List.zipIdx_cons, List.flatMap_cons, ← hrest]
      simp only [Logged.value_bind, Logged.value_pure,
        statement_value ctx body earlier.length (inForce ctx.source earlier) t, entryAt?, htake,
        inForce_append_singleton]

/-- The entries of a body are those of its statements and of the statements inside them. -/
theorem entries_eq_filterMap_sites (ctx : Context) (body : Body) :
    body.entries ctx = body.sites.filterMap (entryAt? ctx) := by
  induction body using Body.induction with
  | hstep body ih =>
    have hrun := statements_value ctx body [] body.node.children rfl
    rw [Body.entries, Body.sites, sitesFrom_eq_flatMap, List.filterMap_flatMap]
    refine hrun.trans ?_
    simp only [List.flatMap_def]
    congr 1
    apply List.map_congr_left
    rintro ⟨t, index⟩ hplace
    have hat : body.node.namedChildren[index]? = some t := List.mem_zipIdx_iff_getElem?.mp hplace
    rw [sitesOf_eq_cons]
    cases hopened : body.opened? index t with
    | none => cases h : entryAt? ctx ⟨body, index, t⟩ <;> simp [h]
    | some inner =>
      cases h : entryAt? ctx ⟨body, index, t⟩ <;> simp [h, ih index t inner hat hopened]

/-- The outline of a tree in closed form. -/
theorem ofTree_value (ctx : Context) (root : SyntaxTree) :
    (ofTree ctx root).value = (rootBody root).sites.filterMap (entryAt? ctx) :=
  entries_eq_filterMap_sites ctx (rootBody root)

end RubySig.Outline

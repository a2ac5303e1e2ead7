import RubySig.Proofs.OutlineExactness
import Mathlib.Data.List.Induction

/-!
# The owner of a declaration

On its way down, an outline puts the name of each class or module behind the owner so far, unless there
is no owner yet or the owner is empty. So the owner of a declaration is the join of the names of the
classes and modules around it without the empty ones at the beginning. Later empty names stay. The
statements around a declaration are found from its path in the tree alone, and `class << self` is one
of them but adds no name.
-/

namespace RubySig.Outline

open RubySig.Rbs
open RubySig.Ruby

/-- The statements that open the bodies on a path, the outermost first. -/
def statementsAlong : SyntaxTree → List Nat → List SyntaxTree
  | _, [] => []
  | node, index :: rest =>
    match node.namedChildren[index]? with
    | none => []
    | some t =>
      t :: match t.child? "body" with
        | none => []
        | some body => statementsAlong body rest

/-- The names of the classes and modules on a path, empty where there is none. -/
def namesAlong (source : Source) (root : SyntaxTree) (path : List Nat) : List String :=
  ((statementsAlong root path).filter opensScope).map (·.fieldText source "name")

/-- The names of classes and modules inside each other as one name. -/
def joinedNames (names : List String) : Option String :=
  if names.isEmpty then none else some ("::".intercalate (names.dropWhile String.isEmpty))

section Paths

/-- What comes after a path is looked up from a node. -/
def LeadsTo (root : SyntaxTree) (path : List Nat) (node : SyntaxTree) : Prop :=
  ∀ later, statementsAlong root (path ++ later) = statementsAlong root path ++ statementsAlong node later

variable {root node t inner : SyntaxTree} {path : List Nat} {index : Nat}

/-- The way into a body goes through the statement that holds it. -/
theorem statementsAlong_cons (hat : node.namedChildren[index]? = some t)
    (hinner : t.child? "body" = some inner) (later : List Nat) :
    statementsAlong node (index :: later) = t :: statementsAlong inner later := by
  rw [statementsAlong, hat]
  simp only [hinner]

/-- One more step of a path passes the statement at its place. -/
theorem LeadsTo.statementsAlong_concat (h : LeadsTo root path node)
    (hat : node.namedChildren[index]? = some t) (hinner : t.child? "body" = some inner) :
    statementsAlong root (path ++ [index]) = statementsAlong root path ++ [t] := by
  rw [h [index], statementsAlong_cons hat hinner, statementsAlong]

/-- A way goes on from a body into the body of one of its statements. -/
theorem LeadsTo.concat (h : LeadsTo root path node) (hat : node.namedChildren[index]? = some t)
    (hinner : t.child? "body" = some inner) : LeadsTo root (path ++ [index]) inner := by
  intro later
  rw [h.statementsAlong_concat hat hinner, List.append_assoc, List.singleton_append, h (index :: later),
    statementsAlong_cons hat hinner, List.append_assoc, List.singleton_append]

/-- The path of a body leads to its node. -/
theorem IsBody.leadsTo {body : Body} (h : IsBody root body) : LeadsTo root body.path body.node := by
  induction h with
  | root => exact fun later => rfl
  | scope _ hat _ hnode ih => exact ih.concat hat hnode
  | singleton _ hat _ _ _ hnode ih => exact ih.concat hat hnode

/-- The classes and modules around a body are those on its path. -/
theorem IsBody.scopes_eq_filter {body : Body} (h : IsBody root body) :
    body.scopes = (statementsAlong root body.path).filter opensScope := by
  induction h with
  | root => rfl
  | @scope body index t node hbody hat htype hnode ih =>
    have hopens : opensScope t = true := by simpa [opensScope] using htype
    rw [hbody.leadsTo.statementsAlong_concat hat hnode, List.filter_append, ← ih,
      List.filter_singleton, hopens]
    rfl
  | @singleton body index t value node hbody hat htype hvalue hself hnode ih =>
    have hopens : opensScope t = false := by simp [opensScope, htype]
    rw [hbody.leadsTo.statementsAlong_concat hat hnode, List.filter_append, ← ih,
      List.filter_singleton, hopens]
    simp

end Paths

section Names

/-- A single name is not changed. -/
theorem intercalate_dropWhile_singleton (name : String) :
    "::".intercalate ([name].dropWhile String.isEmpty) = name := by
  cases h : name.isEmpty with
  | true =>
    rw [List.dropWhile_cons_of_pos h, List.dropWhile_nil, String.isEmpty_iff.mp h]
    rfl
  | false => rw [List.dropWhile_cons_of_neg (by simp [h]), String.intercalate_singleton]

/-- Names that do not begin with an empty one do not join to the empty text. -/
theorem intercalate_dropWhile_ne_empty {names : List String} (h : names.dropWhile String.isEmpty ≠ []) :
    ("::".intercalate (names.dropWhile String.isEmpty)).isEmpty = false := by
  have hfirst := List.head_dropWhile_not String.isEmpty h
  obtain ⟨first, later, hnames⟩ := List.exists_cons_of_ne_nil h
  simp only [hnames, List.head_cons] at hfirst ⊢
  cases later with
  | nil => rw [String.intercalate_singleton, hfirst]
  | cons next later => simp [String.intercalate_cons_cons]

/-- A name is put behind the names around it. -/
theorem qualify_joinedNames (names : List String) (name : String) :
    some (qualify (joinedNames names) name) = joinedNames (names ++ [name]) := by
  have hjoined : joinedNames (names ++ [name]) =
      some ("::".intercalate ((names ++ [name]).dropWhile String.isEmpty)) := by simp [joinedNames]
  rw [hjoined, List.dropWhile_append, Option.some.injEq]
  by_cases hkept : names.dropWhile String.isEmpty = []
  · -- There is no name so far, or there are only empty ones: the new name is the whole owner.
    rw [hkept, List.isEmpty_nil, if_pos rfl, intercalate_dropWhile_singleton, joinedNames]
    split <;> simp [qualify, hkept]
  · have hne : names.isEmpty = false := by
      cases names with
      | nil => exact absurd rfl hkept
      | cons => rfl
    rw [if_neg (by simpa using hkept), String.intercalate_append_of_ne_nil hkept (List.cons_ne_nil _ _),
      String.intercalate_singleton, joinedNames, hne]
    simp [qualify, intercalate_dropWhile_ne_empty hkept]

/-- The owner inside classes and modules is the join of their names. -/
theorem ownerOf_eq_joinedNames (source : Source) (scopes : List SyntaxTree) :
    ownerOf source scopes = joinedNames (scopes.map (·.fieldText source "name")) := by
  induction scopes using List.reverseRecOn with
  | nil => rfl
  | append_singleton scopes scope ih =>
    rw [ownerOf_append_singleton, ih, qualify_joinedNames, List.map_append, List.map_singleton]

end Names

/-- The owner of a declaration is the join of the names of the classes and modules around it, without
the empty names at the beginning; there is none outside of all classes and modules. -/
theorem ofTree_owner (ctx : Context) (root : SyntaxTree) :
    ∃ sites, Origins ctx root sites ∧
      List.Forall₂ (fun site entry =>
        entry.owner = joinedNames (namesAlong ctx.source root site.body.path))
        sites (ofTree ctx root).value := by
  refine ⟨declaringSites ctx root, origins_declaringSites ctx root, ?_⟩
  have hsites : ∀ site ∈ declaringSites ctx root, IsSite root site := fun site hsite =>
    (((origins_declaringSites ctx root).complete site).mp hsite).1
  refine ((List.forall₂_and_left _ _).mpr ⟨hsites, forall₂_declaringSites ctx root⟩).imp ?_
  rintro site entry ⟨hsite, hentry⟩
  obtain ⟨declaration, -, rfl⟩ := Option.map_eq_some_iff.mp hentry
  rw [namesAlong, ← hsite.body.scopes_eq_filter]
  exact ownerOf_eq_joinedNames ctx.source site.body.scopes

-- Only the empty names at the beginning are left out.
example : joinedNames ["", "A", "", "B"] = some "A::::B" := by
  decide

end RubySig.Outline

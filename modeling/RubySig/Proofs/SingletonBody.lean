import RubySig.Declaration.Member
import RubySig.Proofs.OutlineEntries

/-!
# The body of `class << self` follows the ordinary body

Going through statements as the body of `class << self` gives what going through them as an
ordinary body gives, statement by statement: the declarations that the statements make themselves
lose the aliases, mixins and attributes, and their methods without a receiver get `self` for one.
What comes from bodies inside the statements is the same in both, and so are the owners, the tags
and the visibilities.

The comparison is of entries; the log events of the two ways differ.
-/

namespace RubySig

open RubySig.Rbs
open RubySig.Ruby

/-- A declaration of an ordinary body as it counts in the body of `class << self`: a method gets
`self` for a receiver that it lacks, and aliases, mixins and attributes do not count. -/
def Declaration.inSingleton? : Declaration → Option Declaration
  | .method declaration =>
    let definition := declaration.definition
    some (.method { declaration with
      definition := { definition with receiver := some (definition.receiver.getD .self) } })
  | .aliasing _ => none
  | .mixin _ => none
  | .attr _ => none
  | .marker visibility call => some (.marker visibility call)
  | .other call => some (.other call)

/-- An entry of an ordinary body as it counts in the body of `class << self`. -/
def Entry.inSingleton? (entry : Entry) : Option Entry :=
  entry.declaration.inSingleton?.map fun declaration => { entry with declaration := declaration }

namespace Outline

/-- A statement of a body with the entries that come from it. -/
structure Piece where
  statement : SyntaxTree
  entries : List Entry

/-- What each statement of a body contributes, given the visibility in force. -/
def pieces (ctx : Context) (owner : Option String) (mode : Mode) (visibility : Visibility) :
    List SyntaxTree → List Piece
  | [] => []
  | t :: rest =>
    if t.named then
      let step := (statement ctx owner mode visibility t).value
      ⟨t, step.1⟩ :: pieces ctx owner mode step.2 rest
    else pieces ctx owner mode visibility rest

/-- The entries of a piece are made by its statement itself, not by a body inside it. -/
def Piece.isDirect (piece : Piece) : Bool :=
  !(opensScope piece.statement || opensSingleton piece.statement)

/-- A piece of an ordinary body as it counts in the body of `class << self`. -/
def Piece.inSingleton (piece : Piece) : Piece :=
  if piece.isDirect then { piece with entries := piece.entries.filterMap Entry.inSingleton? }
  else piece

/-- The entries of a body are those of its pieces. -/
theorem statements_value_eq_flatMap_pieces (ctx : Context) (owner : Option String) (mode : Mode)
    (visibility : Visibility) (nodes : List SyntaxTree) :
    (statements ctx owner mode visibility nodes).value =
      (pieces ctx owner mode visibility nodes).flatMap Piece.entries := by
  induction nodes generalizing visibility with
  | nil => simp [statements, pieces]
  | cons t rest ih =>
    rw [statements, pieces]
    cases t.named with
    | false => exact ih visibility
    | true => simp [ih]

/-- A statement declares in the body of `class << self` what counts there of what it declares in an
ordinary body. -/
theorem declares_singleton_iff (ctx : Context) (t : SyntaxTree) (d : Declaration) :
    Declares ctx .singleton t d ↔ ∃ d', Declares ctx .plain t d' ∧ d'.inSingleton? = some d := by
  constructor
  · intro h
    cases h with
    | method htype =>
      exact ⟨_, .method htype, by simp [Declaration.inSingleton?, place_plain, place_singleton]⟩
    | marker visibility hmarker => exact ⟨_, .marker visibility hmarker, rfl⟩
    | tagged visibility node definition htags hread =>
      exact ⟨_, .tagged visibility node definition htags hread, by
        simp [Declaration.inSingleton?, place_plain, place_singleton]⟩
    | aliasing hmode | mixin hmode | attr hmode => contradiction
  · rintro ⟨d', h, hd⟩
    cases h with
    | method htype =>
      obtain rfl := Option.some.inj hd
      have hmethod : Declares ctx .singleton t _ := .method htype
      simpa only [place_plain, place_singleton] using hmethod
    | marker visibility hmarker =>
      obtain rfl := Option.some.inj hd
      exact .marker visibility hmarker
    | tagged visibility node definition htags hread =>
      obtain rfl := Option.some.inj hd
      have htagged : Declares ctx .singleton t _ := .tagged visibility node definition htags hread
      simpa only [place_plain, place_singleton] using htagged
    | aliasing | mixin | attr => contradiction

/-- The two ways to read a statement that opens no body. -/
theorem declaration?_singleton_value (ctx : Context) (t : SyntaxTree) :
    (declaration? ctx .singleton t).value =
      (declaration? ctx .plain t).value.bind Declaration.inSingleton? := by
  apply Option.ext
  intro d
  rw [Option.bind_eq_some_iff, declaration?_value_eq_some_iff, declares_singleton_iff]
  simp only [declaration?_value_eq_some_iff]

/-- A statement that opens a body is gone through alike in both kinds of bodies. -/
theorem statement_singleton_of_opens (ctx : Context) (owner : Option String) (visibility : Visibility)
    (t : SyntaxTree) (h : (opensScope t || opensSingleton t) = true) :
    statement ctx owner .singleton visibility t = statement ctx owner .plain visibility t := by
  -- The kind of the body reaches only `leaf`: an inner body gets its kind from what opens it.
  rw [statement_eq, statement_eq]
  rcases Bool.or_eq_true_iff.mp h with h | h <;> simp [h]

/-- The step: a statement in the body of `class << self` against the same statement in an ordinary
body. -/
theorem statement_singleton_value (ctx : Context) (owner : Option String) (visibility : Visibility)
    (t : SyntaxTree) :
    (statement ctx owner .singleton visibility t).value =
      ((Piece.inSingleton ⟨t, (statement ctx owner .plain visibility t).value.1⟩).entries,
        (statement ctx owner .plain visibility t).value.2) := by
  cases hopens : opensScope t || opensSingleton t with
  | true =>
    rw [statement_singleton_of_opens ctx owner visibility t hopens]
    simp [Piece.inSingleton, Piece.isDirect, hopens]
  | false =>
    obtain ⟨hscope, hsingleton⟩ := Bool.or_eq_false_iff.mp hopens
    have hleaf (mode : Mode) :
        statement ctx owner mode visibility t = leaf ctx owner mode visibility t := by
      rw [statement_eq]
      simp [hscope, hsingleton]
    rw [hleaf, hleaf, leaf_value, leaf_value, declaration?_singleton_value]
    simp only [Piece.inSingleton, Piece.isDirect, hopens, Bool.not_false, if_true, Prod.mk.injEq,
      and_true]
    cases (declaration? ctx .plain t).value with
    | none => rfl
    | some d => cases h : d.inSingleton? <;> simp [Entry.inSingleton?, h]

/-- The run: the pieces of the body of `class << self` against those of an ordinary body. -/
theorem pieces_singleton (ctx : Context) (owner : Option String) (visibility : Visibility)
    (nodes : List SyntaxTree) :
    pieces ctx owner .singleton visibility nodes =
      (pieces ctx owner .plain visibility nodes).map Piece.inSingleton := by
  induction nodes generalizing visibility with
  | nil => rfl
  | cons t rest ih =>
    cases hnamed : t.named with
    | false => simp only [pieces, hnamed, Bool.false_eq_true, if_false, ih]
    | true =>
      simp only [pieces, hnamed, if_true, List.map_cons, statement_singleton_value, ih]
      congr 1
      simp only [Piece.inSingleton]
      split <;> rfl

/-- The node of the definition behind a method that a statement declares: the statement itself, or
the definition that it tags. -/
inductive DefinitionAt (source : Source) (t : SyntaxTree) : SyntaxTree → Prop where
  | itself (htype : t.type = "method" ∨ t.type = "singleton_method") : DefinitionAt source t t
  | tagged (visibility : Visibility) (node : SyntaxTree) (htags : Tags source visibility t node) :
    DefinitionAt source t node

/-- A definition that is written with a receiver other than `self`. -/
def HasForeignReceiver (node : SyntaxTree) : Prop :=
  node.type = "singleton_method" ∧ ∃ object, node.child? "object" = some object ∧ object.type ≠ "self"

/-- Only the node `self` is read as `self`. -/
theorem readExpr_eq_self_iff (source : Source) (t : SyntaxTree) :
    t.readExpr source = .self ↔ t.type = "self" := by
  unfold SyntaxTree.readExpr
  split
  · simp_all
  · split
    · simp_all
    · split <;> simp_all

/-- A definition counts as one on `self` unless it is written with another receiver. -/
theorem receiver?_getD_self_iff (source : Source) (node : SyntaxTree) :
    (node.receiver? source).getD .self = .self ↔ ¬ HasForeignReceiver node := by
  by_cases htype : node.type = "singleton_method"
  · cases hobject : node.child? "object" <;>
      simp [SyntaxTree.receiver?, HasForeignReceiver, htype, hobject, readExpr_eq_self_iff]
  · simp [SyntaxTree.receiver?, HasForeignReceiver, htype]

/-- A method is one on the singleton exactly when its receiver is `self`. -/
theorem kind_eq_onSingleton_iff (settings : Settings) (method : MethodDeclaration) :
    (method.kind settings).value = .onSingleton ↔ method.definition.receiver = some .self := by
  unfold MethodDeclaration.kind
  split <;> simp_all

/-- A method in the body of `class << self` has the receiver that its definition is written with, or
else `self`. -/
theorem receiver_of_declares_singleton {ctx : Context} {t : SyntaxTree} {method : MethodDeclaration}
    (h : Declares ctx .singleton t (.method method)) :
    ∃ node, DefinitionAt ctx.source t node ∧
      method.definition.receiver = some ((node.receiver? ctx.source).getD .self) := by
  cases h with
  | method htype => exact ⟨t, .itself htype, by rw [place_singleton]; rfl⟩
  | tagged visibility node definition htags hread =>
    refine ⟨node, .tagged visibility node htags, ?_⟩
    rw [htags.definition_eq hread, place_singleton]
    rfl

/-- The entries of a piece that its statement makes itself are its declaration. -/
theorem declares_of_mem_pieces {ctx : Context} {owner : Option String} {mode : Mode}
    (visibility : Visibility) (nodes : List SyntaxTree) {piece : Piece} {entry : Entry}
    (hpiece : piece ∈ pieces ctx owner mode visibility nodes) (hdirect : piece.isDirect = true)
    (hentry : entry ∈ piece.entries) : Declares ctx mode piece.statement entry.declaration := by
  induction nodes generalizing visibility with
  | nil => simp [pieces] at hpiece
  | cons t rest ih =>
    cases hnamed : t.named with
    | false =>
      simp only [pieces, hnamed, Bool.false_eq_true, if_false] at hpiece
      exact ih visibility hpiece
    | true =>
      simp only [pieces, hnamed, if_true, List.mem_cons] at hpiece
      rcases hpiece with rfl | hpiece
      · have hnot : opensScope t = false ∧ opensSingleton t = false := by
          simpa [Piece.isDirect] using hdirect
        rw [statement_eq] at hentry
        simp only [hnot, Bool.false_eq_true, if_false, leaf_value, Option.mem_toList] at hentry
        obtain ⟨d, hd, rfl⟩ := Option.map_eq_some_iff.mp hentry
        exact declaration?_sound hd
      · exact ih _ hpiece

/-- The body of `class << self` has the entries of the ordinary body, piece by piece as they count
there, and a method that a statement of it makes itself is one on the singleton unless it is written
with a receiver other than `self`. -/
theorem singleton_follows_plain (ctx : Context) (owner : Option String) (visibility : Visibility)
    (nodes : List SyntaxTree) :
    (statements ctx owner .plain visibility nodes).value =
      (pieces ctx owner .plain visibility nodes).flatMap Piece.entries ∧
    (statements ctx owner .singleton visibility nodes).value =
      ((pieces ctx owner .plain visibility nodes).map Piece.inSingleton).flatMap Piece.entries ∧
    ∀ piece ∈ (pieces ctx owner .plain visibility nodes).map Piece.inSingleton,
      piece.isDirect = true → ∀ entry ∈ piece.entries, ∀ method, entry.declaration = .method method →
      ∃ node, DefinitionAt ctx.source piece.statement node ∧
        ∀ settings, (method.kind settings).value = .onSingleton ↔ ¬ HasForeignReceiver node := by
  refine ⟨statements_value_eq_flatMap_pieces ctx owner .plain visibility nodes, ?_, ?_⟩
  · rw [statements_value_eq_flatMap_pieces, pieces_singleton]
  · rw [← pieces_singleton]
    intro piece hpiece hdirect entry hentry method hmethod
    have hdeclares := declares_of_mem_pieces visibility nodes hpiece hdirect hentry
    rw [hmethod] at hdeclares
    obtain ⟨node, hnode, hreceiver⟩ := receiver_of_declares_singleton hdeclares
    refine ⟨node, hnode, fun settings => ?_⟩
    rw [kind_eq_onSingleton_iff, hreceiver, Option.some.injEq, receiver?_getD_self_iff]

end Outline

end RubySig

import RubySig.Proofs.OutlineExactness

/-!
# How far the comment next to a statement reaches

Comments are looked up while an outline is made, but nothing is decided by them. The outline of a
tree with comments is the outline without any, with what the comment next to a statement says put
into the entry of that statement: which statements declare something, what they declare, under
which owner and visibility, and what is reported on the way depends on the tree and the source
alone. So two sets of comments can differ only in the entries of statements next to which they
differ, and there only in what the comments say.
-/

namespace RubySig

open RubySig.Rbs
open RubySig.Ruby

/-- A declaration with another comment next to it, and what it takes from that comment. -/
def Declaration.withComments (comments : Option CommentBlock) : Declaration → Declaration
  | .method d => .method { d with comments := comments }
  | .aliasing d => .aliasing { d with comments := comments }
  | .mixin d =>
    .mixin { d with comments := comments, application := CommentBlock.firstApplication comments }
  | .attr d =>
    .attr { d with comments := comments, assertion := CommentBlock.firstAssertion comments }
  | .marker visibility call => .marker visibility call
  | .other call => .other call

/-- An entry with another comment next to its declaration. -/
def Entry.withComments (comments : Option CommentBlock) (entry : Entry) : Entry :=
  { entry with declaration := entry.declaration.withComments comments }

/-- An entry without comments: what is declared, with which node and tag, by whom and under which
visibility. -/
def Entry.bare (entry : Entry) : Entry :=
  entry.withComments none

namespace Outline

/-- The same source without comments. -/
def Context.silent (ctx : Context) : Context :=
  ⟨ctx.source, fun _ => none⟩

section Declarations

variable (ctx : Context) (mode : Mode) (t : SyntaxTree)

/-- What a call to a visibility declares is decided without comments. -/
theorem visibilityDeclaration_eq_withComments (visibility : Visibility) (call : Call) :
    visibilityDeclaration ctx mode t visibility call =
      Option.map (Declaration.withComments (ctx.comments t.line)) <$>
        visibilityDeclaration ctx.silent mode t visibility call := by
  unfold visibilityDeclaration
  split
  · rfl
  · simp [placedDefinition, Declaration.withComments, Context.silent]
  · simp

/-- What a call by another name declares is decided without comments. -/
theorem namedCallDeclaration_eq_withComments (comments : Option CommentBlock) (call : Call) :
    namedCallDeclaration comments call =
      (namedCallDeclaration none call).map (Declaration.withComments comments) := by
  unfold namedCallDeclaration
  split <;> rfl

/-- What a call declares is decided without comments. -/
theorem callDeclaration_eq_withComments :
    callDeclaration ctx mode t =
      Option.map (Declaration.withComments (ctx.comments t.line)) <$>
        callDeclaration ctx.silent mode t := by
  unfold callDeclaration
  rw [map_bind]
  congr 1
  funext call
  cases call.receiver.isSome with
  | true => rfl
  | false =>
    cases Visibility.ofText? call.name with
    | some visibility => exact visibilityDeclaration_eq_withComments ctx mode t visibility call
    | none =>
      cases t.type == "identifier" with
      | true => rfl
      | false =>
        cases mode with
        | singleton => rfl
        | plain => exact congrArg pure (namedCallDeclaration_eq_withComments (ctx.comments t.line) call)

/-- What an alias declares is decided without comments. -/
theorem otherDeclaration_eq_withComments :
    otherDeclaration ctx mode t =
      Option.map (Declaration.withComments (ctx.comments t.line)) <$>
        otherDeclaration ctx.silent mode t := by
  unfold otherDeclaration
  split
  · rfl
  · split
    · split <;> rfl
    · rfl

/-- What a statement declares is what it declares without comments, with the comment next to it. -/
theorem declaration?_eq_withComments :
    declaration? ctx mode t =
      Option.map (Declaration.withComments (ctx.comments t.line)) <$>
        declaration? ctx.silent mode t := by
  unfold declaration?
  split
  · simp [placedDefinition, Declaration.withComments, Context.silent]
  · split
    · exact callDeclaration_eq_withComments ctx mode t
    · split
      · rfl
      · exact otherDeclaration_eq_withComments ctx mode t

end Declarations

/-- The entry of a statement is the one without comments, with the comment next to the statement. -/
theorem entryAt?_eq_withComments (ctx : Context) (site : Site) :
    entryAt? ctx site =
      (entryAt? ctx.silent site).map (Entry.withComments (ctx.comments site.statement.line)) := by
  rw [entryAt?, declaration?_eq_withComments, Logged.value_map, Option.map_map, entryAt?, Option.map_map]
  rfl

/-- The last comment put next to a declaration is the one that counts. -/
@[simp]
theorem withComments_withComments (comments comments' : Option CommentBlock) (entry : Entry) :
    (entry.withComments comments).withComments comments' = entry.withComments comments' := by
  obtain ⟨declaration, owner, visibility⟩ := entry
  cases declaration <;> rfl

/-- A statement that opens no body reports what its declaration reports. -/
theorem log_leaf (ctx : Context) (owner : Option String) (mode : Mode) (visibility : Visibility)
    (t : SyntaxTree) : (leaf ctx owner mode visibility t).log = (declaration? ctx mode t).log := by
  rw [leaf, Logged.log_bind]
  cases (declaration? ctx mode t).value <;> simp

mutual

/-- What is reported about a statement depends neither on comments nor on the visibility in
force. -/
theorem log_statement_silent (ctx : Context) (owner : Option String) (mode : Mode)
    (visibility visibility' : Visibility) : (t : SyntaxTree) →
    (statement ctx owner mode visibility t).log =
      (statement ctx.silent owner mode visibility' t).log
  | ⟨type, start, stop, row, field, named, children⟩ => by
    have hbody (owner : Option String) (mode : Mode) :
        (bodyOf ctx owner mode children).log = (bodyOf ctx.silent owner mode children).log :=
      log_bodyOf_silent ctx owner mode children
    rw [statement_eq, statement_eq]
    split
    · simp [hbody, Context.silent]
    · split
      · split
        · simp [hbody]
        · rfl
      · simp [log_leaf, declaration?_eq_withComments ctx]

/-- What is reported about the body among some nodes does not depend on comments. -/
theorem log_bodyOf_silent (ctx : Context) (owner : Option String) (mode : Mode) :
    (nodes : List SyntaxTree) →
    (bodyOf ctx owner mode nodes).log = (bodyOf ctx.silent owner mode nodes).log
  | [] => rfl
  | ⟨_, _, _, _, field, _, children⟩ :: rest => by
    rw [bodyOf, bodyOf]
    split
    · exact log_statements_silent ctx owner mode .pub .pub children
    · exact log_bodyOf_silent ctx owner mode rest

/-- The two runs thread their own visibilities, so these differ in the statement of the induction. -/
theorem log_statements_silent (ctx : Context) (owner : Option String) (mode : Mode)
    (visibility visibility' : Visibility) : (nodes : List SyntaxTree) →
    (statements ctx owner mode visibility nodes).log =
      (statements ctx.silent owner mode visibility' nodes).log
  | [] => rfl
  | t :: rest => by
    rw [statements, statements]
    split
    · simp only [Logged.log_bind, Logged.log_pure,
        log_statement_silent ctx owner mode visibility visibility' t,
        log_statements_silent ctx owner mode _
          (statement ctx.silent owner mode visibility' t).value.2 rest]
    · exact log_statements_silent ctx owner mode visibility visibility' rest

end

/-- What is reported about a tree does not depend on comments. -/
theorem log_ofTree_silent (ctx : Context) (root : SyntaxTree) :
    (ofTree ctx root).log = (ofTree ctx.silent root).log :=
  log_statements_silent ctx none .plain .pub .pub root.children

/-- Comments do not change which statements declare something. -/
theorem declaringSites_silent (ctx : Context) (root : SyntaxTree) :
    declaringSites ctx root = declaringSites ctx.silent root := by
  rw [declaringSites, declaringSites]
  congr 1
  funext site
  rw [entryAt?_eq_withComments, Option.isSome_map]

/-- The entry in a place of an outline is that of the statement in this place. -/
theorem entryAt?_of_getElem? {ctx : Context} {root : SyntaxTree} {i : Nat} {site : Site} {entry : Entry}
    (hsite : (declaringSites ctx root)[i]? = some site)
    (hentry : (ofTree ctx root).value[i]? = some entry) : entryAt? ctx site = some entry := by
  obtain ⟨hi, rfl⟩ := List.getElem?_eq_some_iff.mp hsite
  obtain ⟨hi', rfl⟩ := List.getElem?_eq_some_iff.mp hentry
  exact (forall₂_declaringSites ctx root).get hi hi'

/-- Whatever the comments are, an outline has the same declarations in the same order, with the same
nodes, tags, owners and visibilities, and reports the same; and where two sets of comments agree
next to the statement of a declaration, they give the same entry altogether. -/
theorem ofTree_comments_local (source : Source) (comments comments' : Int → Option CommentBlock)
    (root : SyntaxTree) :
    (ofTree ⟨source, comments⟩ root).log = (ofTree ⟨source, comments'⟩ root).log ∧
    (ofTree ⟨source, comments⟩ root).value.length = (ofTree ⟨source, comments'⟩ root).value.length ∧
    ∃ sites, Origins ⟨source, comments⟩ root sites ∧ Origins ⟨source, comments'⟩ root sites ∧
      ∀ (i : Nat) (site : Site) (entry entry' : Entry), sites[i]? = some site →
        (ofTree ⟨source, comments⟩ root).value[i]? = some entry →
        (ofTree ⟨source, comments'⟩ root).value[i]? = some entry' →
        entry.bare = entry'.bare ∧
          (comments site.statement.line = comments' site.statement.line → entry = entry') := by
  let ctx : Context := ⟨source, comments⟩
  let ctx' : Context := ⟨source, comments'⟩
  have hsites : declaringSites ctx root = declaringSites ctx' root := by
    rw [declaringSites_silent ctx, declaringSites_silent ctx']
    rfl
  refine ⟨?_, ?_, declaringSites ctx root, origins_declaringSites ctx root, ?_, ?_⟩
  · rw [log_ofTree_silent ctx, log_ofTree_silent ctx']
    rfl
  · rw [← (forall₂_declaringSites ctx root).length_eq, hsites,
      (forall₂_declaringSites ctx' root).length_eq]
  · rw [hsites]
    exact origins_declaringSites ctx' root
  · intro i site entry entry' hsite hentry hentry'
    have hat := entryAt?_of_getElem? hsite hentry
    have hat' := entryAt?_of_getElem? (hsites ▸ hsite) hentry'
    rw [entryAt?_eq_withComments] at hat hat'
    obtain ⟨silent, hsilent, rfl⟩ := Option.map_eq_some_iff.mp hat
    obtain ⟨silent', hsilent', rfl⟩ := Option.map_eq_some_iff.mp hat'
    have hsame : silent = silent' := Option.some.inj (hsilent.symm.trans hsilent')
    subst hsame
    refine ⟨?_, fun hagree => ?_⟩
    · simp [Entry.bare]
    · exact congrArg (fun block => silent.withComments block) hagree

end Outline

end RubySig

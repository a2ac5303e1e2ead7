import RubySig.Proofs.OutlineExactness

/-!
# The line of a declaration and the line of its comment

The comment of a declaration is looked up next to the statement that makes it, while the line of a
declaration is that of the node that is declared. The two are the same node unless the statement
tags a definition: the definition is then an argument of the statement and may start on a later
line. So a declaration has the comment next to its own line, whatever the comments are, exactly in
the trees in which every tagged definition starts on the line of the statement that tags it.
-/

namespace RubySig

open RubySig.Rbs
open RubySig.Ruby

/-- Methods, aliases, mixins and attributes take the comment next to them. -/
def Declaration.takesComments : Declaration → Bool
  | .method _ | .aliasing _ | .mixin _ | .attr _ => true
  | .marker _ _ | .other _ => false

namespace Outline

/-- The comment of a declaration is the one next to its statement. -/
theorem comments_of_declares {ctx : Context} {mode : Mode} {t : SyntaxTree} {d : Declaration}
    (h : Declares ctx mode t d) (htakes : d.takesComments = true) :
    d.comments = ctx.comments t.line := by
  cases h with
  | marker => contradiction
  | method | tagged | aliasing | mixin | attr => rfl

/-- A call that is read of a node has the line of the node. -/
theorem line_readCall (source : Source) (t : SyntaxTree) : (t.readCall source).value.line = t.line := by
  unfold SyntaxTree.readCall
  split <;> rfl

/-- A definition keeps its line in a body of any kind. -/
theorem line_place (mode : Mode) (definition : Definition) :
    (mode.place definition).line = definition.line := by
  unfold Mode.place
  split <;> rfl

/-- The line of a declaration is that of its statement, or of the definition that this tags. -/
theorem line_of_declares {ctx : Context} {mode : Mode} {t : SyntaxTree} {d : Declaration}
    (h : Declares ctx mode t d) :
    d.line = t.line ∨
      ∃ visibility node, Tags ctx.source visibility t node ∧ d.line = node.line := by
  cases h with
  | method => exact .inl (line_place mode _)
  | aliasing => exact .inl rfl
  | marker | mixin | attr => exact .inl (line_readCall ctx.source t)
  | tagged visibility node definition htags hread =>
    refine .inr ⟨visibility, node, htags, ?_⟩
    rw [Declaration.line, line_place, htags.definition_eq hread]
    rfl

/-- A declaration has the comment next to its own line, whatever the comments are. -/
def CommentedAtLine (source : Source) (root : SyntaxTree) : Prop :=
  ∀ (comments : Int → Option CommentBlock), ∀ entry ∈ (ofTree ⟨source, comments⟩ root).value,
    entry.declaration.takesComments = true →
      entry.declaration.comments = comments entry.declaration.line

/-- Every definition that is tagged starts on the line of the statement that tags it. -/
def TaggedOnOneLine (source : Source) (root : SyntaxTree) : Prop :=
  ∀ site, IsSite root site → ∀ visibility node, Tags source visibility site.statement node →
    node.line = site.statement.line

/-- The declarations of a tree have the comments next to their own lines, whatever these are, exactly
when every tagged definition starts on the line of the statement that tags it. -/
theorem commentedAtLine_iff_taggedOnOneLine (source : Source) (root : SyntaxTree) :
    CommentedAtLine source root ↔ TaggedOnOneLine source root := by
  constructor
  · intro hcommented site hsite visibility node htags
    -- One comment next to the statement alone: the definition finds it only on the same line.
    let comments : Int → Option CommentBlock := fun line =>
      if line = site.statement.line then some {} else none
    have htagged : Declares ⟨source, comments⟩ site.body.mode site.statement _ :=
      .tagged visibility node _ htags htags.arguments_readCall
    obtain ⟨entry, hentry, hmade⟩ := exists_mem_of_declares hsite htagged
    have hcomment := hcommented comments entry hentry (by rw [hmade]; rfl)
    rw [hmade, Declaration.line, line_place] at hcomment
    by_contra hne
    have hmissing : comments node.line = none := if_neg hne
    have hfound : comments site.statement.line = some {} := if_pos rfl
    exact absurd (hfound.symm.trans (hcomment.trans hmissing)) (by simp)
  · intro hline comments entry hentry htakes
    obtain ⟨site, hsite, hmade⟩ := exists_declares_of_mem hentry
    rw [comments_of_declares hmade htakes]
    rcases line_of_declares hmade with hsame | ⟨visibility, node, htags, hnode⟩
    · rw [hsame]
    · rw [hnode, hline site hsite visibility node htags]

/-- The tree of `private(` and, on the next line, `def f; end)`. -/
def taggedBelow : SyntaxTree :=
  { type := "program", start := 0, stop := 22, children := [
    { type := "call", start := 0, stop := 22, children := [
      { type := "identifier", start := 0, stop := 7, field := some "method" },
      { type := "argument_list", start := 7, stop := 22, field := some "arguments", children := [
        { type := "(", start := 7, stop := 8, named := false },
        { type := "method", start := 11, stop := 21, row := 1, children := [
          { type := "def", start := 11, stop := 14, row := 1, named := false },
          { type := "identifier", start := 15, stop := 16, row := 1, field := some "name" },
          { type := "end", start := 18, stop := 21, row := 1, named := false }] },
        { type := ")", start := 21, stop := 22, row := 1, named := false }] }] }] }

/-- A definition that is tagged from the line above does not have the comment next to it. -/
theorem not_commentedAtLine_taggedBelow :
    ¬ CommentedAtLine (.ofString "private(\n  def f; end)") taggedBelow := by
  intro h
  have hcomment := h (fun line => if line = 2 then some {} else none) _ (.head _) rfl
  contradiction

end Outline

end RubySig

import RubySig.Proofs.OutlineExactness

/-!
# The visibility in force at a declaration

Every body starts out public, and a marker changes the visibility from itself on to the end of its
body. So the visibility in force at a declaration is that of the last marker among the statements
of the same body up to it. Markers in bodies inside, around or beside that body are not among these
statements, and the statements that open the bodies inside it mark nothing. A definition that is
tagged where it stands has the visibility of its tag instead.
-/

namespace RubySig.Outline

open RubySig.Rbs
open RubySig.Ruby

/-- A tagged definition has the visibility of its tag. -/
theorem visibility_of_tags {ctx : Context} {site : Site} {entry : Entry} {visibility : Visibility}
    {node : SyntaxTree} (h : entryAt? ctx site = some entry)
    (htags : Tags ctx.source visibility site.statement node) : entry.visibility = visibility := by
  have hdeclares : Declares ctx site.body.mode site.statement _ :=
    .tagged visibility node _ htags htags.arguments_readCall
  rw [Entry.visibility, ← (declares_iff_of_entryAt? h _).mp hdeclares]
  rfl

/-- Every other declaration has the visibility in force. -/
theorem visibility_of_not_tags {ctx : Context} {site : Site} {entry : Entry}
    (h : entryAt? ctx site = some entry)
    (hnot : ¬ ∃ visibility node, Tags ctx.source visibility site.statement node) :
    entry.visibility = entry.defaultVisibility := by
  obtain ⟨made, hmade, rfl⟩ := Option.map_eq_some_iff.mp h
  cases declaration?_sound hmade with
  | tagged visibility node _ htags => exact absurd ⟨visibility, node, htags⟩ hnot
  | method | marker | aliasing | mixin | attr => rfl

/-- Every declaration in the outline of a tree stands under the visibility of the last marker among
the statements of its body up to it, and has that visibility unless it is tagged with one. -/
theorem ofTree_visibility (ctx : Context) (root : SyntaxTree) :
    ∃ sites, Origins ctx root sites ∧
      List.Forall₂ (fun site entry =>
        entry.defaultVisibility =
          inForce ctx.source (site.body.node.namedChildren.take (site.index + 1)) ∧
        (∀ visibility node, Tags ctx.source visibility site.statement node →
          entry.visibility = visibility) ∧
        ((¬ ∃ visibility node, Tags ctx.source visibility site.statement node) →
          entry.visibility = entry.defaultVisibility))
        sites (ofTree ctx root).value := by
  refine ⟨declaringSites ctx root, origins_declaringSites ctx root,
    (forall₂_declaringSites ctx root).imp fun site entry h => ⟨?_, ?_, ?_⟩⟩
  · obtain ⟨made, -, rfl⟩ := Option.map_eq_some_iff.mp h
    rfl
  · exact fun visibility node htags => visibility_of_tags h htags
  · exact visibility_of_not_tags h

end RubySig.Outline

import RubySig.Proofs.OutlineEntries
import Mathlib.Data.List.Forall2
import Mathlib.Data.List.Perm.Basic

/-!
# An outline has exactly the declarations of its tree

The statements behind the entries of an outline are its origins: the statements of the tree's
bodies that declare something, in the order of their paths, one for each entry. They are said
without the outline's own walk, by the bodies of the tree and by the shapes of declarations, and
there is only one such list. So no declaration is lost, made up, repeated or moved.
-/

namespace RubySig.Outline

open RubySig.Rbs
open RubySig.Ruby

/-- The statements behind the entries of the outline of a tree, one for each entry: they follow
each other in the source, they are all the statements that declare something, and what each of them
declares is what its entry has. -/
structure Origins (ctx : Context) (root : SyntaxTree) (sites : List Site) : Prop where
  ordered : sites.Pairwise fun site later => site.path < later.path
  complete : ∀ site, site ∈ sites ↔
    IsSite root site ∧ ∃ declaration, Declares ctx site.body.mode site.statement declaration
  declared : List.Forall₂ (fun site entry => ∀ declaration,
    Declares ctx site.body.mode site.statement declaration ↔ declaration = entry.declaration)
    sites (ofTree ctx root).value

/-- The statements of a tree that declare something. -/
def declaringSites (ctx : Context) (root : SyntaxTree) : List Site :=
  (rootBody root).sites.filter fun site => (entryAt? ctx site).isSome

/-- What a partial function gives on a list stands next to the elements on which it is defined. -/
theorem forall₂_filter_filterMap {α β : Type} (f : α → Option β) (l : List α) :
    List.Forall₂ (fun a b => f a = some b) (l.filter fun a => (f a).isSome) (l.filterMap f) := by
  induction l with
  | nil => exact .nil
  | cons a l ih =>
    cases h : f a with
    | none => simpa [h] using ih
    | some b => simpa [h] using ih

/-- Each entry of an outline is that of the statement next to it. -/
theorem forall₂_declaringSites (ctx : Context) (root : SyntaxTree) :
    List.Forall₂ (fun site entry => entryAt? ctx site = some entry)
      (declaringSites ctx root) (ofTree ctx root).value := by
  rw [ofTree_value]
  exact forall₂_filter_filterMap (entryAt? ctx) (rootBody root).sites

/-- A statement has an entry exactly when it has the shape of a declaration. -/
theorem isSome_entryAt?_iff (ctx : Context) (site : Site) :
    (entryAt? ctx site).isSome = true ↔
      ∃ declaration, Declares ctx site.body.mode site.statement declaration := by
  rw [entryAt?, Option.isSome_map, Option.isSome_iff_exists]
  simp only [declaration?_value_eq_some_iff]

/-- The declaration in an entry is the only one that its statement makes. -/
theorem declares_iff_of_entryAt? {ctx : Context} {site : Site} {entry : Entry}
    (h : entryAt? ctx site = some entry) (declaration : Declaration) :
    Declares ctx site.body.mode site.statement declaration ↔ declaration = entry.declaration := by
  obtain ⟨made, hmade, rfl⟩ := Option.map_eq_some_iff.mp h
  rw [← declaration?_value_eq_some_iff, hmade, Option.some.injEq]
  exact eq_comm

/-- Every entry of an outline comes from a statement of the tree. -/
theorem exists_declares_of_mem {ctx : Context} {root : SyntaxTree} {entry : Entry}
    (h : entry ∈ (ofTree ctx root).value) :
    ∃ site, IsSite root site ∧ Declares ctx site.body.mode site.statement entry.declaration := by
  rw [ofTree_value, List.mem_filterMap] at h
  obtain ⟨site, hsite, hentry⟩ := h
  exact ⟨site, (mem_sites_rootBody_iff root site).mp hsite,
    (declares_iff_of_entryAt? hentry entry.declaration).mpr rfl⟩

/-- Every declaration that a statement of the tree makes is in the outline. -/
theorem exists_mem_of_declares {ctx : Context} {root : SyntaxTree} {site : Site} {d : Declaration}
    (hsite : IsSite root site) (h : Declares ctx site.body.mode site.statement d) :
    ∃ entry ∈ (ofTree ctx root).value, entry.declaration = d := by
  obtain ⟨entry, hentry⟩ := Option.isSome_iff_exists.mp ((isSome_entryAt?_iff ctx site).mpr ⟨d, h⟩)
  refine ⟨entry, ?_, ((declares_iff_of_entryAt? hentry d).mp h).symm⟩
  rw [ofTree_value]
  exact List.mem_filterMap.mpr ⟨site, (mem_sites_rootBody_iff root site).mpr hsite, hentry⟩

/-- The statements that declare something are the origins of the outline. -/
theorem origins_declaringSites (ctx : Context) (root : SyntaxTree) :
    Origins ctx root (declaringSites ctx root) where
  ordered := (sites_pairwise_path (rootBody root)).filter _
  complete site := by
    rw [declaringSites, List.mem_filter, mem_sites_rootBody_iff, isSome_entryAt?_iff]
  declared := (forall₂_declaringSites ctx root).imp fun _ _ h => declares_iff_of_entryAt? h

/-- Strictly increasing paths leave only one order for given statements. -/
theorem Origins.unique {ctx : Context} {root : SyntaxTree} {sites sites' : List Site}
    (h : Origins ctx root sites) (h' : Origins ctx root sites') : sites = sites' := by
  have hnodup {l : List Site} (hl : l.Pairwise fun site later => site.path < later.path) :
      l.Nodup := by
    refine List.Pairwise.imp ?_ hl
    rintro site _ hlt rfl
    exact List.lt_irrefl _ hlt
  have hperm : sites.Perm sites' :=
    (List.perm_ext_iff_of_nodup (hnodup h.ordered) (hnodup h'.ordered)).mpr fun site =>
      (h.complete site).trans (h'.complete site).symm
  exact hperm.eq_of_pairwise (fun _ _ _ _ hlt hgt => absurd (List.lt_trans hlt hgt) (List.lt_irrefl _))
    h.ordered h'.ordered

/-- The outline of a tree has exactly one declaration for each statement of the tree's bodies that
has the shape of a declaration, in the order of the source, and nothing else. -/
theorem ofTree_has_unique_origins (ctx : Context) (root : SyntaxTree) :
    ∃! sites, Origins ctx root sites :=
  ⟨declaringSites ctx root, origins_declaringSites ctx root, fun _ h =>
    h.unique (origins_declaringSites ctx root)⟩

end RubySig.Outline

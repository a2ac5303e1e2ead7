import RubySig.Proofs.CommentLines
import Mathlib.Data.List.Flatten

/-!
# The lines of an outline follow the source

Every declaration of an outline is read off one node of the tree: the statement that makes it, or
the definition that this tags, which lies two levels deeper. Here the nodes of the tree are listed
in pre-order, each before the nodes below it, and the declarations are read off nodes further and
further on in that list. So no node is read twice, and the lines of the declarations are some of
the lines of the nodes, in the same order.

That the rows of a tree do not go back in pre-order is what a parser gives; only the last part of
the result needs it.
-/

namespace RubySig

open RubySig.Rbs
open RubySig.Ruby

namespace Ruby.SyntaxTree

mutual

/-- A node and the nodes below it, each before its children. -/
def preorder : SyntaxTree → List SyntaxTree
  | ⟨type, start, stop, row, field, named, children⟩ =>
    ⟨type, start, stop, row, field, named, children⟩ :: preorderEach children

/-- The nodes of trees, one tree after the other. -/
def preorderEach : List SyntaxTree → List SyntaxTree
  | [] => []
  | t :: rest => t.preorder ++ preorderEach rest

end

/-- The nodes of several trees are those of each in turn. -/
theorem preorderEach_eq_flatMap (nodes : List SyntaxTree) :
    preorderEach nodes = nodes.flatMap preorder := by
  induction nodes with
  | nil => rw [preorderEach]; rfl
  | cons t rest ih => rw [preorderEach, ih, List.flatMap_cons]

/-- A node comes first, and then the nodes below each of its children. -/
theorem preorder_eq_cons (t : SyntaxTree) : t.preorder = t :: t.children.flatMap preorder := by
  cases t
  rw [preorder, preorderEach_eq_flatMap]

/-- A tree is one of its own nodes. -/
theorem mem_preorder_self (t : SyntaxTree) : t ∈ t.preorder := by
  rw [preorder_eq_cons]
  exact List.mem_cons_self

/-- The nodes of the children stand in order among those of the tree. -/
theorem flatMap_children_sublist_preorder (t : SyntaxTree) :
    (t.children.flatMap preorder).Sublist t.preorder := by
  rw [preorder_eq_cons]
  exact List.sublist_cons_self t _

/-- The nodes of a child are nodes of its parent, in the same order. -/
theorem preorder_sublist_of_mem_children {child t : SyntaxTree} (h : child ∈ t.children) :
    child.preorder.Sublist t.preorder := by
  have hchild := (List.singleton_sublist.mpr h).flatMap preorder
  rw [List.flatMap_singleton] at hchild
  exact hchild.trans (flatMap_children_sublist_preorder t)

/-- The nodes of the child under a field stand in order among those of the tree. -/
theorem preorder_sublist_of_child? {t child : SyntaxTree} {field : String}
    (h : t.child? field = some child) : child.preorder.Sublist t.preorder :=
  preorder_sublist_of_mem_children (List.mem_of_find?_eq_some h)

end Ruby.SyntaxTree

namespace Outline

open RubySig.Ruby.SyntaxTree

/-- A declaration is read off a node: it has the definition, the alias statement or the call that
the node stands for. -/
inductive ReadOff (source : Source) (node : SyntaxTree) : Declaration → Prop where
  | method {method : MethodDeclaration} (mode : Mode)
    (hread : method.definition = mode.place (node.readDefinition source).value) :
    ReadOff source node (.method method)
  | aliasing {aliasing : AliasDeclaration} (hread : aliasing.statement = node.readAlias source) :
    ReadOff source node (.aliasing aliasing)
  | mixin {mixin : MixinDeclaration} (hread : mixin.call = (node.readCall source).value) :
    ReadOff source node (.mixin mixin)
  | attr {attr : AttributeDeclaration} (hread : attr.call = (node.readCall source).value) :
    ReadOff source node (.attr attr)
  | marker {visibility : Visibility} {call : Call} (hread : call = (node.readCall source).value) :
    ReadOff source node (.marker visibility call)

/-- A declaration has the line of the node that it is read off. -/
theorem ReadOff.line_eq {source : Source} {node : SyntaxTree} {d : Declaration}
    (h : ReadOff source node d) : d.line = node.line := by
  cases h with
  | method mode hread => rw [Declaration.line, hread, line_place]; rfl
  | aliasing hread => rw [Declaration.line, hread]; rfl
  | mixin hread | attr hread | marker hread => rw [Declaration.line, hread, line_readCall]

/-- The arguments that a call is given are below it. -/
theorem mem_preorder_of_mem_givenArguments {t node : SyntaxTree} (h : node ∈ givenArguments t) :
    node ∈ t.preorder := by
  cases hlist : t.child? "arguments" with
  | none => simp [givenArguments, hlist] at h
  | some list =>
    simp only [givenArguments, hlist] at h
    have hchild : node ∈ list.children := List.mem_of_mem_filter (List.mem_of_mem_filter h)
    have hbelow := (preorder_sublist_of_mem_children hchild).trans (preorder_sublist_of_child? hlist)
    exact hbelow.subset (mem_preorder_self node)

/-- What a statement declares is read off the statement or a node below it. -/
theorem exists_readOff_of_declares {ctx : Context} {mode : Mode} {t : SyntaxTree} {d : Declaration}
    (h : Declares ctx mode t d) : ∃ node ∈ t.preorder, ReadOff ctx.source node d := by
  cases h with
  | method => exact ⟨t, mem_preorder_self t, .method mode rfl⟩
  | marker => exact ⟨t, mem_preorder_self t, .marker rfl⟩
  | tagged visibility node definition htags hread =>
    have hgiven : node ∈ givenArguments t := by rw [htags.only]; exact List.mem_singleton_self node
    exact ⟨node, mem_preorder_of_mem_givenArguments hgiven,
      .method mode (by rw [htags.definition_eq hread])⟩
  | aliasing => exact ⟨t, mem_preorder_self t, .aliasing rfl⟩
  | mixin => exact ⟨t, mem_preorder_self t, .mixin rfl⟩
  | attr => exact ⟨t, mem_preorder_self t, .attr rfl⟩

/-- Entries are read off some of the nodes of a list, each off a later one than the entry before. -/
def ReadInOrder (source : Source) (entries : List Entry) (nodes : List SyntaxTree) : Prop :=
  List.SublistForall₂ (fun entry node => ReadOff source node entry.declaration) entries nodes

section Order

variable {source : Source} {entries later : List Entry} {nodes further : List SyntaxTree}

/-- Entries that are read in order off some nodes are read so off more nodes. -/
theorem ReadInOrder.mono (h : ReadInOrder source entries nodes) (hnodes : nodes.Sublist further) :
    ReadInOrder source entries further := by
  obtain ⟨read, hread, hsub⟩ := List.sublistForall₂_iff.mp h
  exact List.sublistForall₂_iff.mpr ⟨read, hread, hsub.trans hnodes⟩

/-- Entries that are read in order off two runs of nodes are read so off both in a row. -/
theorem ReadInOrder.append (h : ReadInOrder source entries nodes)
    (hlater : ReadInOrder source later further) :
    ReadInOrder source (entries ++ later) (nodes ++ further) := by
  obtain ⟨read, hread, hsub⟩ := List.sublistForall₂_iff.mp h
  obtain ⟨read', hread', hsub'⟩ := List.sublistForall₂_iff.mp hlater
  exact List.sublistForall₂_iff.mpr ⟨read ++ read', List.rel_append hread hread', hsub.append hsub'⟩

/-- Lists that are read in order one by one are read in order as a whole. -/
theorem readInOrder_flatMap {α : Type} {places : List α} {made : α → List Entry}
    {below : α → List SyntaxTree} (h : ∀ place ∈ places, ReadInOrder source (made place) (below place)) :
    ReadInOrder source (places.flatMap made) (places.flatMap below) := by
  induction places with
  | nil => exact .nil
  | cons place places ih =>
    rw [List.flatMap_cons, List.flatMap_cons]
    exact (h place List.mem_cons_self).append
      (ih fun place hplace => h place (List.mem_cons_of_mem _ hplace))

end Order

/-- A statement that opens a body has no entry of its own. -/
theorem entryAt?_of_opened {ctx : Context} {body inner : Body} {index : Nat} {t : SyntaxTree}
    (h : body.opened? index t = some inner) : entryAt? ctx ⟨body, index, t⟩ = none := by
  obtain ⟨level, hlevel, -⟩ := Option.bind_eq_some_iff.mp h
  have hopens : opensScope t = true ∨ opensSingleton t = true := by
    unfold Level.inside? at hlevel
    split at hlevel
    · exact .inl ‹_›
    · split at hlevel
      · exact .inr (Bool.and_eq_true_iff.mp ‹_›).1
      · contradiction
  rw [entryAt?, declaration?_value_of_opens ctx body.mode t hopens, Option.map_none]

/-- The nodes below the body inside a statement are below the statement. -/
theorem flatMap_children_sublist_of_opened {body inner : Body} {index : Nat} {t : SyntaxTree}
    (h : body.opened? index t = some inner) :
    (inner.node.children.flatMap preorder).Sublist t.preorder := by
  obtain ⟨level, -, h⟩ := Option.bind_eq_some_iff.mp h
  obtain ⟨node, hnode, rfl⟩ := Option.map_eq_some_iff.mp h
  exact (flatMap_children_sublist_preorder node).trans (preorder_sublist_of_child? hnode)

/-- The step: the entries of a statement and of the body inside it are read off the nodes of the
statement, if those of the body are read off the nodes of the body. -/
theorem readInOrder_sitesOf (ctx : Context) (body : Body) (index : Nat) (t : SyntaxTree)
    (hinner : ∀ inner, body.opened? index t = some inner →
      ReadInOrder ctx.source (inner.sites.filterMap (entryAt? ctx)) (inner.node.children.flatMap preorder)) :
    ReadInOrder ctx.source ((sitesOf body index t).filterMap (entryAt? ctx)) t.preorder := by
  rw [sitesOf_eq_cons]
  cases hopened : body.opened? index t with
  | some inner =>
    rw [List.filterMap_cons_none (entryAt?_of_opened hopened)]
    exact (hinner inner hopened).mono (flatMap_children_sublist_of_opened hopened)
  | none =>
    cases hentry : entryAt? ctx ⟨body, index, t⟩ with
    | none => rw [List.filterMap_cons_none hentry]; exact .nil
    | some entry =>
      obtain ⟨d, hd, rfl⟩ := Option.map_eq_some_iff.mp hentry
      obtain ⟨node, hnode, hread⟩ := exists_readOff_of_declares (declaration?_sound hd)
      rw [List.filterMap_cons_some hentry]
      exact List.sublistForall₂_iff.mpr ⟨[node], .cons hread .nil, List.singleton_sublist.mpr hnode⟩

/-- The run: the entries of a body and of the bodies inside it are read off the nodes below it. -/
theorem readInOrder_sites (ctx : Context) (body : Body) :
    ReadInOrder ctx.source (body.sites.filterMap (entryAt? ctx)) (body.node.children.flatMap preorder) := by
  induction body using Body.induction with
  | hstep body ih =>
    have hnamed : body.node.namedChildren.zipIdx.flatMap (fun place => place.1.preorder) =
        body.node.namedChildren.flatMap preorder := by
      rw [← List.flatMap_map Prod.fst preorder, List.zipIdx_map_fst]
    rw [Body.sites, sitesFrom_eq_flatMap, List.filterMap_flatMap]
    refine ReadInOrder.mono (readInOrder_flatMap ?_)
      (hnamed ▸ List.filter_sublist.flatMap preorder)
    rintro ⟨t, index⟩ hplace
    exact readInOrder_sitesOf ctx body index t fun inner hopened =>
      ih index t inner (List.mem_zipIdx_iff_getElem?.mp hplace) hopened

/-- The outline of a tree is read off the nodes of the tree in pre-order. -/
theorem readInOrder_ofTree (ctx : Context) (root : SyntaxTree) :
    ReadInOrder ctx.source (ofTree ctx root).value root.preorder := by
  rw [ofTree_value]
  exact (readInOrder_sites ctx (rootBody root)).mono (flatMap_children_sublist_preorder root)

/-- Entries that are read in order are read at places of the list that go up strictly. -/
theorem ReadInOrder.exists_places {source : Source} {entries : List Entry} {nodes : List SyntaxTree}
    (h : ReadInOrder source entries nodes) :
    ∃ places : List Nat, places.Pairwise (· < ·) ∧
      List.Forall₂ (fun place entry => ∃ node, nodes[place]? = some node ∧
        ReadOff source node entry.declaration) places entries := by
  rw [ReadInOrder, ← List.zipIdx_map_fst 0 nodes, List.sublistForall₂_map_right_iff] at h
  obtain ⟨read, hread, hsub⟩ := List.sublistForall₂_iff.mp h
  have hup : (nodes.zipIdx.map Prod.snd).Pairwise (· < ·) := by
    rw [List.zipIdx_map_snd]
    exact List.pairwise_lt_range'
  have hat : ∀ place ∈ read, nodes[place.2]? = some place.1 := fun place hplace =>
    List.mem_zipIdx_iff_getElem?.mp (hsub.subset hplace)
  refine ⟨read.map Prod.snd, hup.sublist (hsub.map Prod.snd), List.forall₂_map_left_iff.mpr ?_⟩
  exact ((List.forall₂_and_left read entries).mpr ⟨hat, hread.flip⟩).imp fun place entry h =>
    ⟨place.1, h⟩

/-- Entries that are read in order have some of the lines of the nodes, in the same order. -/
theorem ReadInOrder.lines_sublist {source : Source} {entries : List Entry} {nodes : List SyntaxTree}
    (h : ReadInOrder source entries nodes) :
    (entries.map (·.declaration.line)).Sublist (nodes.map line) := by
  obtain ⟨read, hread, hsub⟩ := List.sublistForall₂_iff.mp h
  have hlines : List.Forall₂ Eq (entries.map (·.declaration.line)) (read.map line) :=
    List.forall₂_map_left_iff.mpr (List.forall₂_map_right_iff.mpr
      (hread.imp fun entry node hoff => hoff.line_eq))
  rw [List.forall₂_eq_eq_eq] at hlines
  rw [hlines]
  exact hsub.map line

/-- The declarations of a tree are read off its nodes in pre-order, each off a node of its own. So
their lines are some of the lines of the nodes, in the same order, and do not go back if the rows of
the nodes do not. -/
theorem ofTree_lines_follow_preorder (ctx : Context) (root : SyntaxTree) :
    (∃ places : List Nat, places.Pairwise (· < ·) ∧
      List.Forall₂ (fun place entry => ∃ node, root.preorder[place]? = some node ∧
        ReadOff ctx.source node entry.declaration ∧ entry.declaration.line = node.line)
        places (ofTree ctx root).value) ∧
    ((ofTree ctx root).value.map (·.declaration.line)).Sublist (root.preorder.map line) ∧
    ((root.preorder.map (·.row)).Pairwise (· ≤ ·) →
      ((ofTree ctx root).value.map (·.declaration.line)).Pairwise (· ≤ ·)) := by
  have hread := readInOrder_ofTree ctx root
  refine ⟨?_, hread.lines_sublist, fun hrows => ?_⟩
  · obtain ⟨places, hup, hplaces⟩ := hread.exists_places
    refine ⟨places, hup, hplaces.imp ?_⟩
    rintro place entry ⟨node, hat, hoff⟩
    exact ⟨node, hat, hoff, hoff.line_eq⟩
  · have hlines : (root.preorder.map line).Pairwise (· ≤ ·) := by
      rw [List.pairwise_map] at hrows ⊢
      exact hrows.imp fun {node next} hle => by simp only [line]; omega
    exact hlines.sublist hread.lines_sublist

/-- The text of a class with `class << self`, in which `private(` tags the definition on the next line,
and with an alias after it. -/
def nestedTagsContext : Context where
  source := .ofString
    "class A\n  class << self\n    private(\n      def f; end)\n  end\n  alias b c\nend"
  comments := fun _ => none

/-- The tree of that text, without the tokens that have no name. -/
def nestedTags : SyntaxTree :=
  { type := "program", start := 0, stop := 76, children := [
    { type := "class", start := 0, stop := 76, children := [
      { type := "constant", start := 6, stop := 7, field := some "name" },
      { type := "body_statement", start := 10, stop := 72, row := 1, field := some "body", children := [
        { type := "singleton_class", start := 10, stop := 60, row := 1, children := [
          { type := "self", start := 19, stop := 23, row := 1, field := some "value" },
          { type := "body_statement", start := 28, stop := 54, row := 2, field := some "body", children := [
            { type := "call", start := 28, stop := 54, row := 2, children := [
              { type := "identifier", start := 28, stop := 35, row := 2, field := some "method" },
              { type := "argument_list", start := 35, stop := 54, row := 2, field := some "arguments",
                children := [
                { type := "method", start := 43, stop := 53, row := 3, children := [
                  { type := "identifier", start := 47, stop := 48, row := 3, field := some "name" }] }] }] }] }] },
        { type := "alias", start := 63, stop := 72, row := 5, children := [
          { type := "identifier", start := 69, stop := 70, row := 5, field := some "name" },
          { type := "identifier", start := 71, stop := 72, row := 5, field := some "alias" }] }] }] }] }

/-- The tagged definition and the alias after it have their own lines, in order. -/
theorem ofTree_nestedTags_lines :
    (nestedTags.preorder.map (·.row)).Pairwise (· ≤ ·) ∧
    (ofTree nestedTagsContext nestedTags).value.map (·.declaration.line) = [4, 6] ∧
    ((ofTree nestedTagsContext nestedTags).value.map (·.declaration.line)).Pairwise (· ≤ ·) :=
  ⟨by decide, by decide, (ofTree_lines_follow_preorder nestedTagsContext nestedTags).2.2 (by decide)⟩

end Outline

end RubySig

import RubySig.Outline
import Mathlib.Data.List.Basic

/-!
# The statements that an outline goes through

A body is the tree itself, what a class or module statement of a body holds as its body, or what
`class << self` holds as its body. Bodies and statements are told apart by where they stand, not by
what they are: the path of a statement has, for every body on the way to it, the place of the
statement to go on with among the named nodes of that body. Paths compare like words in a
dictionary, which is the order in which the statements start in the source.

`Body.sites` lists the statements of a body and of the bodies inside it. The list is strictly
increasing in the paths, and for the body of a whole tree it has every statement of every body.
Which of them declare something is not looked at here.
-/

namespace RubySig.Outline

open RubySig.Rbs
open RubySig.Ruby

/-- Where a body stands: the path of the statement that opens it, its kind, and the class and
module statements around it, the outermost first. -/
structure Level where
  path : List Nat
  mode : Mode
  scopes : List SyntaxTree

/-- A body: where it stands, and the node whose named children are its statements. -/
structure Body extends Level where
  node : SyntaxTree

/-- A statement of a body, with its place among the statements of the body. -/
structure Site where
  body : Body
  index : Nat
  statement : SyntaxTree

/-- The way to a statement from the root. -/
def Site.path (site : Site) : List Nat :=
  site.body.path ++ [site.index]

/-- The tree as a body. -/
def rootBody (root : SyntaxTree) : Body :=
  ⟨⟨[], .plain, []⟩, root⟩

/-- The bodies of a tree that its outline goes through. -/
inductive IsBody (root : SyntaxTree) : Body → Prop where
  | root : IsBody root (rootBody root)
  | scope {body : Body} {index : Nat} {t node : SyntaxTree} (hbody : IsBody root body)
    (hat : body.node.namedChildren[index]? = some t)
    (htype : t.type = "class" ∨ t.type = "module") (hnode : t.child? "body" = some node) :
    IsBody root ⟨⟨body.path ++ [index], .plain, body.scopes ++ [t]⟩, node⟩
  | singleton {body : Body} {index : Nat} {t value node : SyntaxTree} (hbody : IsBody root body)
    (hat : body.node.namedChildren[index]? = some t)
    (htype : t.type = "singleton_class") (hvalue : t.child? "value" = some value)
    (hself : value.type = "self") (hnode : t.child? "body" = some node) :
    IsBody root ⟨⟨body.path ++ [index], .singleton, body.scopes⟩, node⟩

/-- A statement of one of the bodies of a tree. -/
structure IsSite (root : SyntaxTree) (site : Site) : Prop where
  body : IsBody root site.body
  statement : site.body.node.namedChildren[site.index]? = some site.statement

/-- Where the body inside a statement stands, if the outline goes through it. -/
def Level.inside? (level : Level) (index : Nat) (t : SyntaxTree) : Option Level :=
  if opensScope t then some ⟨level.path ++ [index], .plain, level.scopes ++ [t]⟩
  else if opensSingleton t && isOfSelf t then
    some ⟨level.path ++ [index], .singleton, level.scopes⟩
  else none

/-- The body inside a statement, if the outline goes through it. -/
def Body.opened? (body : Body) (index : Nat) (t : SyntaxTree) : Option Body :=
  (body.inside? index t).bind fun level => (t.child? "body").map fun node => ⟨level, node⟩

mutual

/-- A statement and the statements inside it. -/
def sitesOf (body : Body) (index : Nat) : SyntaxTree → List Site
  | ⟨type, start, stop, row, field, named, children⟩ =>
    let t := ⟨type, start, stop, row, field, named, children⟩
    ⟨body, index, t⟩ ::
      match body.inside? index t with
      | none => []
      | some level => sitesInside level children

/-- The statements of the body among the children of a statement. -/
def sitesInside (level : Level) : List SyntaxTree → List Site
  | [] => []
  | ⟨type, start, stop, row, field, named, children⟩ :: rest =>
    if field == some "body" then
      sitesFrom ⟨level, ⟨type, start, stop, row, field, named, children⟩⟩ 0 children
    else sitesInside level rest

/-- The statements among nodes of a body, from a place on. -/
def sitesFrom (body : Body) (index : Nat) : List SyntaxTree → List Site
  | [] => []
  | t :: rest =>
    if t.named then sitesOf body index t ++ sitesFrom body (index + 1) rest
    else sitesFrom body index rest

end

/-- The statements of a body and of the bodies inside it, in the order of the source. -/
def Body.sites (body : Body) : List Site :=
  sitesFrom body 0 body.node.children

/-- The statements inside a statement are those of the child that is held as its body. -/
theorem sitesInside_children (level : Level) (t : SyntaxTree) :
    sitesInside level t.children =
      match t.child? "body" with
      | none => []
      | some node => Body.sites ⟨level, node⟩ := by
  simp only [SyntaxTree.child?]
  induction t.children with
  | nil => rw [sitesInside]; rfl
  | cons child rest ih =>
    obtain ⟨_, _, _, _, field, _, children⟩ := child
    rw [sitesInside]
    cases h : field == some "body" <;> simp [List.find?, h, ih, Body.sites]

/-- A statement comes before the statements of the body that it opens. -/
theorem sitesOf_eq_cons (body : Body) (index : Nat) (t : SyntaxTree) :
    sitesOf body index t =
      ⟨body, index, t⟩ :: (body.opened? index t).elim [] Body.sites := by
  have hunfold : sitesOf body index t =
      ⟨body, index, t⟩ ::
        match body.inside? index t with
        | none => []
        | some level => sitesInside level t.children := by
    cases t
    rw [sitesOf]
  rw [hunfold, Body.opened?]
  cases body.inside? index t with
  | none => rfl
  | some level =>
    simp only [Option.bind_some, sitesInside_children]
    cases t.child? "body" <;> rfl

/-- The statements of a body come one after the other, each with those inside it. -/
theorem sitesFrom_eq_flatMap (body : Body) (index : Nat) (nodes : List SyntaxTree) :
    sitesFrom body index nodes =
      ((nodes.filter (·.named)).zipIdx index).flatMap fun place => sitesOf body place.2 place.1 := by
  induction nodes generalizing index with
  | nil => rw [sitesFrom]; rfl
  | cons t rest ih =>
    rw [sitesFrom]
    cases h : t.named with
    | false => simp [h, ih]
    | true => simp [h, ih, List.zipIdx_cons]

/-- A statement listed for a body is one of its own or one of a body inside it. -/
theorem mem_sites_iff (body : Body) (site : Site) :
    site ∈ body.sites ↔ ∃ index t, body.node.namedChildren[index]? = some t ∧
      (site = ⟨body, index, t⟩ ∨ ∃ inner, body.opened? index t = some inner ∧ site ∈ inner.sites) := by
  have hin (index : Nat) (t : SyntaxTree) : site ∈ sitesOf body index t ↔
      site = ⟨body, index, t⟩ ∨ ∃ inner, body.opened? index t = some inner ∧ site ∈ inner.sites := by
    rw [sitesOf_eq_cons, List.mem_cons]
    cases body.opened? index t <;> simp
  rw [Body.sites, sitesFrom_eq_flatMap, List.mem_flatMap]
  constructor
  · rintro ⟨⟨t, index⟩, hplace, hsite⟩
    exact ⟨index, t, List.mem_zipIdx_iff_getElem?.mp hplace, (hin index t).mp hsite⟩
  · rintro ⟨index, t, hat, hsite⟩
    exact ⟨(t, index), List.mem_zipIdx_iff_getElem?.mpr hat, (hin index t).mpr hsite⟩

/-- A child is smaller than its parent. -/
theorem sizeOf_lt_of_mem_children {child t : SyntaxTree} (h : child ∈ t.children) :
    sizeOf child < sizeOf t := by
  obtain ⟨_, _, _, _, _, _, children⟩ := t
  have hlt : sizeOf child < sizeOf children := List.sizeOf_lt_of_mem h
  simp only [SyntaxTree.mk.sizeOf_spec]
  omega

/-- The body inside a statement is smaller than the body that the statement stands in. -/
theorem sizeOf_lt_of_opened {body inner : Body} {index : Nat} {t : SyntaxTree}
    (hat : body.node.namedChildren[index]? = some t) (h : body.opened? index t = some inner) :
    sizeOf inner.node < sizeOf body.node := by
  obtain ⟨level, -, h⟩ := Option.bind_eq_some_iff.mp h
  obtain ⟨node, hnode, rfl⟩ := Option.map_eq_some_iff.mp h
  have hchild := sizeOf_lt_of_mem_children (List.mem_of_find?_eq_some hnode)
  have hstatement := sizeOf_lt_of_mem_children
    (List.mem_of_mem_filter (List.mem_of_getElem? hat))
  exact Nat.lt_trans hchild hstatement

/-- The path of the body inside a statement is that of the statement. -/
theorem path_of_opened {body inner : Body} {index : Nat} {t : SyntaxTree}
    (h : body.opened? index t = some inner) : inner.path = body.path ++ [index] := by
  obtain ⟨level, hlevel, h⟩ := Option.bind_eq_some_iff.mp h
  obtain ⟨node, -, rfl⟩ := Option.map_eq_some_iff.mp h
  unfold Level.inside? at hlevel
  split at hlevel
  · exact Option.some.inj hlevel ▸ rfl
  · split at hlevel
    · exact Option.some.inj hlevel ▸ rfl
    · contradiction

/-- What holds of a body whenever it holds of the bodies inside its statements holds of every
body. -/
theorem Body.induction {P : Body → Prop}
    (hstep : ∀ body : Body, (∀ index t inner, body.node.namedChildren[index]? = some t →
      body.opened? index t = some inner → P inner) → P body) (body : Body) : P body :=
  hstep body fun _ _ inner hat h =>
    have := sizeOf_lt_of_opened hat h
    Body.induction hstep inner
termination_by sizeOf body.node

/-- The level inside a statement of a body of a tree is that of another body of the tree. -/
theorem IsBody.inside {root t node : SyntaxTree} {body : Body} {index : Nat} {level : Level}
    (hbody : IsBody root body) (hat : body.node.namedChildren[index]? = some t)
    (hlevel : body.inside? index t = some level) (hnode : t.child? "body" = some node) :
    IsBody root ⟨level, node⟩ := by
  unfold Level.inside? at hlevel
  split at hlevel
  · rename_i hscope
    obtain rfl := Option.some.inj hlevel
    exact .scope hbody hat (by simpa [opensScope] using hscope) hnode
  · split at hlevel
    · rename_i hself
      obtain rfl := Option.some.inj hlevel
      obtain ⟨htype, hself⟩ : t.type = "singleton_class" ∧ isOfSelf t = true := by
        simpa [opensSingleton] using hself
      unfold isOfSelf at hself
      split at hself
      · contradiction
      · rename_i value hvalue
        exact .singleton hbody hat htype hvalue (beq_iff_eq.mp hself) hnode
    · contradiction

/-- Every statement listed for a body of a tree is a statement of the tree. -/
theorem isSite_of_mem_sites {root : SyntaxTree} (body : Body) (hbody : IsBody root body) (site : Site)
    (h : site ∈ body.sites) : IsSite root site := by
  induction body using Body.induction with
  | hstep body ih =>
    obtain ⟨index, t, hat, rfl | ⟨inner, hopened, hsite⟩⟩ := (mem_sites_iff body site).mp h
    · exact ⟨hbody, hat⟩
    · refine ih index t inner hat hopened ?_ hsite
      obtain ⟨level, hlevel, hinner⟩ := Option.bind_eq_some_iff.mp hopened
      obtain ⟨node, hnode, rfl⟩ := Option.map_eq_some_iff.mp hinner
      exact hbody.inside hat hlevel hnode

/-- The statements of a body that a statement of another body opens are listed with it. -/
theorem sites_subset_of_opened {body inner : Body} {index : Nat} {t : SyntaxTree}
    (hat : body.node.namedChildren[index]? = some t) (h : body.opened? index t = some inner) :
    inner.sites ⊆ body.sites :=
  fun site hsite => (mem_sites_iff body site).mpr ⟨index, t, hat, .inr ⟨inner, h, hsite⟩⟩

/-- The statements of every body of a tree are listed with the tree. -/
theorem IsBody.sites_subset {root : SyntaxTree} {body : Body} (h : IsBody root body) :
    body.sites ⊆ (rootBody root).sites := by
  induction h with
  | root => exact List.Subset.refl _
  | scope _ hat htype hnode ih =>
    refine List.Subset.trans (sites_subset_of_opened hat ?_) ih
    rcases htype with htype | htype <;> simp [Body.opened?, Level.inside?, opensScope, htype, hnode]
  | singleton _ hat htype hvalue hself hnode ih =>
    refine List.Subset.trans (sites_subset_of_opened hat ?_) ih
    simp [Body.opened?, Level.inside?, opensScope, opensSingleton, isOfSelf, htype, hvalue, hself, hnode]

/-- The statements listed for a tree are exactly those of its bodies. -/
theorem mem_sites_rootBody_iff (root : SyntaxTree) (site : Site) :
    site ∈ (rootBody root).sites ↔ IsSite root site :=
  ⟨isSite_of_mem_sites (rootBody root) .root site, fun h =>
    h.body.sites_subset ((mem_sites_iff site.body site).mpr
      ⟨site.index, site.statement, h.statement, .inl rfl⟩)⟩

/-- The path of a statement listed for a body goes through the body. -/
theorem path_of_mem_sites (body : Body) (site : Site) (h : site ∈ body.sites) :
    ∃ index rest, site.path = body.path ++ index :: rest := by
  induction body using Body.induction with
  | hstep body ih =>
    obtain ⟨index, t, hat, rfl | ⟨inner, hopened, hsite⟩⟩ := (mem_sites_iff body site).mp h
    · exact ⟨index, [], rfl⟩
    · obtain ⟨next, rest, hpath⟩ := ih index t inner hat hopened hsite
      exact ⟨index, next :: rest, by rw [hpath, path_of_opened hopened, List.append_assoc]; rfl⟩

/-- The paths of the statements inside a statement go on from its own. -/
theorem path_of_mem_opened {body inner : Body} {index : Nat} {t : SyntaxTree} {site : Site}
    (hopened : body.opened? index t = some inner) (h : site ∈ inner.sites) :
    ∃ next rest, site.path = body.path ++ [index] ++ next :: rest := by
  obtain ⟨next, rest, hpath⟩ := path_of_mem_sites inner site h
  exact ⟨next, rest, by rw [hpath, path_of_opened hopened]⟩

/-- A statement and the statements inside it share the way up to the place of the statement. -/
theorem path_of_mem_sitesOf {body : Body} {index : Nat} {t : SyntaxTree} {site : Site}
    (h : site ∈ sitesOf body index t) : ∃ rest, site.path = body.path ++ index :: rest := by
  rw [sitesOf_eq_cons, List.mem_cons] at h
  rcases h with rfl | h
  · exact ⟨[], rfl⟩
  · cases hopened : body.opened? index t with
    | none => simp [hopened] at h
    | some inner =>
      obtain ⟨next, rest, hpath⟩ := path_of_mem_opened hopened (by simpa [hopened] using h)
      exact ⟨next :: rest, by rw [hpath, List.append_assoc]; rfl⟩

/-- Going on at an earlier place of a body comes before going on at a later one. -/
theorem path_lt_of_index_lt (path : List Nat) {index later : Nat} (h : index < later)
    (rest rest' : List Nat) : path ++ index :: rest < path ++ later :: rest' :=
  List.append_left_lt (List.cons_lt_cons_iff.mpr (.inl h))

/-- The statements of a body are listed in the order of their paths, each only once. -/
theorem sites_pairwise_path (body : Body) :
    body.sites.Pairwise fun site later => site.path < later.path := by
  induction body using Body.induction with
  | hstep body ih =>
    rw [Body.sites, sitesFrom_eq_flatMap, List.pairwise_flatMap]
    constructor
    -- Below one statement its own path is the beginning of all others; two statements of the body
    -- are told apart by their places, whatever lies below them.
    · rintro ⟨t, index⟩ hplace
      have hat : body.node.namedChildren[index]? = some t := List.mem_zipIdx_iff_getElem?.mp hplace
      rw [sitesOf_eq_cons]
      cases hopened : body.opened? index t with
      | none => exact List.pairwise_singleton _ _
      | some inner =>
        refine List.pairwise_cons.mpr ⟨fun site hsite => ?_, ih index t inner hat hopened⟩
        obtain ⟨next, rest, hpath⟩ := path_of_mem_opened hopened hsite
        have hlt : body.path ++ [index] ++ [] < body.path ++ [index] ++ next :: rest :=
          List.append_left_lt (List.nil_lt_cons next rest)
        rwa [List.append_nil, ← hpath] at hlt
    · have hplaces : (body.node.namedChildren.zipIdx.map Prod.snd).Pairwise (· < ·) := by
        rw [List.zipIdx_map_snd]
        exact List.pairwise_lt_range'
      refine (List.pairwise_map.mp hplaces).imp fun {place other} hlt => ?_
      intro site hsite later hlater
      obtain ⟨rest, hpath⟩ := path_of_mem_sitesOf hsite
      obtain ⟨rest', hpath'⟩ := path_of_mem_sitesOf hlater
      rw [hpath, hpath']
      exact path_lt_of_index_lt body.path hlt rest rest'

end RubySig.Outline

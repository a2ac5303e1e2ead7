import RubySig.Ruby.Reading
import Mathlib.Data.List.Basic

/-!
# Grouped parameters in closed form

Parameters are grouped one by one as they come. Here the groups are said at once, each from the
whole list: the required parameters are those in front of the first optional, rest or forwarding
parameter and the posts all others, optional parameters and keywords stay in order, and of several
rests, rests of keywords or blocks only the last one counts.
-/

namespace RubySig.Ruby

namespace ParameterItem

/-- The required parameter of an item. -/
def positional? : ParameterItem → Option Positional
  | positional parameter => some parameter
  | _ => none

/-- The optional parameter of an item. -/
def optional? : ParameterItem → Option OptionalParameter
  | optional parameter => some parameter
  | _ => none

/-- The rest parameter of an item. -/
def rest? : ParameterItem → Option Rest
  | rest name => some (.named name)
  | forwarding => some .forwarding
  | _ => none

/-- The keyword of an item. -/
def keyword? : ParameterItem → Option Keyword
  | keyword parameter => some parameter
  | _ => none

/-- The rest of the keywords of an item. -/
def keywordRest? : ParameterItem → Option KeywordRest
  | keywordRest parameter => some parameter
  | forwarding => some .forwarding
  | _ => none

/-- The block parameter of an item. -/
def block? : ParameterItem → Option BlockParameter
  | block parameter => some parameter
  | _ => none

/-- Parameters behind which a required parameter is a post. -/
def endsRequired : ParameterItem → Bool
  | optional _ | rest _ | forwarding => true
  | _ => false

/-- A required parameter does not end the required ones. -/
theorem positional?_of_endsRequired {item : ParameterItem} (h : item.endsRequired = true) :
    item.positional? = none := by
  cases item with
  | positional => contradiction
  | _ => rfl

end ParameterItem

namespace Parameters

/-- A required parameter that comes next is not a post. -/
def isOpen (p : Parameters) : Bool :=
  p.rest.isNone && p.optionals.isEmpty

section Step

variable (p : Parameters) (item : ParameterItem)

/-- A required parameter is put at the end of the requireds or, once these are closed, of the posts.
-/
theorem add_positional (parameter : Positional) :
    p.add (.positional parameter) =
      if p.isOpen then { p with requireds := p.requireds ++ [parameter] }
      else { p with posts := p.posts ++ [parameter] } := rfl

/-- The requireds are closed by the first item that ends them. -/
theorem isOpen_add : (p.add item).isOpen = (p.isOpen && !item.endsRequired) := by
  cases item with
  | positional parameter =>
    rw [add_positional]
    split <;> simp [isOpen, ParameterItem.endsRequired]
  | _ => simp [add, isOpen, ParameterItem.endsRequired]

/-- Adding an item adds its required parameter to the requireds while these are open. -/
theorem requireds_add :
    (p.add item).requireds = p.requireds ++ if p.isOpen then item.positional?.toList else [] := by
  cases item with
  | positional parameter =>
    rw [add_positional]
    split <;> simp_all [ParameterItem.positional?]
  | _ => simp [add, ParameterItem.positional?]

/-- Adding an item adds its required parameter to the posts once the requireds are closed. -/
theorem posts_add :
    (p.add item).posts = p.posts ++ if p.isOpen then [] else item.positional?.toList := by
  cases item with
  | positional parameter =>
    rw [add_positional]
    split <;> simp_all [ParameterItem.positional?]
  | _ => simp [add, ParameterItem.positional?]

/-- Adding an item adds its optional parameter, if it is one. -/
theorem optionals_add : (p.add item).optionals = p.optionals ++ item.optional?.toList := by
  cases item with
  | positional parameter =>
    rw [add_positional]
    split <;> simp [ParameterItem.optional?]
  | _ => simp [add, ParameterItem.optional?]

/-- Adding an item adds its keyword, if it is one. -/
theorem keywords_add : (p.add item).keywords = p.keywords ++ item.keyword?.toList := by
  cases item with
  | positional parameter =>
    rw [add_positional]
    split <;> simp [ParameterItem.keyword?]
  | _ => simp [add, ParameterItem.keyword?]

/-- Adding an item replaces the rest, if it is one. -/
theorem rest_add : (p.add item).rest = item.rest?.or p.rest := by
  cases item with
  | positional parameter =>
    rw [add_positional]
    split <;> simp [ParameterItem.rest?]
  | _ => simp [add, ParameterItem.rest?]

/-- Adding an item replaces the rest of the keywords, if it is one. -/
theorem keywordRest_add : (p.add item).keywordRest = item.keywordRest?.or p.keywordRest := by
  cases item with
  | positional parameter =>
    rw [add_positional]
    split <;> simp [ParameterItem.keywordRest?]
  | _ => simp [add, ParameterItem.keywordRest?]

/-- Adding an item replaces the block, if it is one. -/
theorem block_add : (p.add item).block = item.block?.or p.block := by
  cases item with
  | positional parameter =>
    rw [add_positional]
    split <;> simp [ParameterItem.block?]
  | _ => simp [add, ParameterItem.block?]

end Step

section Run

variable {α : Type} (p : Parameters) (items : List ParameterItem)

/-- A group to which each item adds what it has of a kind has in the end all of that kind. -/
theorem foldl_add_eq_append {group : Parameters → List α} {pick : ParameterItem → Option α}
    (hstep : ∀ p item, group (p.add item) = group p ++ (pick item).toList) :
    group (items.foldl add p) = group p ++ items.filterMap pick := by
  induction items generalizing p with
  | nil => simp
  | cons item items ih =>
    rw [List.foldl_cons, ih, hstep, List.append_assoc]
    cases h : pick item <;> simp [h]

/-- A place that each item of a kind takes anew is held in the end by the last one of that kind. -/
theorem foldl_add_eq_or {place : Parameters → Option α} {pick : ParameterItem → Option α}
    (hstep : ∀ p item, place (p.add item) = (pick item).or (place p)) :
    place (items.foldl add p) = (items.filterMap pick).getLast?.or (place p) := by
  induction items generalizing p with
  | nil => rfl
  | cons item items ih =>
    rw [List.foldl_cons, ih, hstep]
    cases h : pick item with
    | none => simp [h]
    | some held => cases hlast : (items.filterMap pick).getLast? <;> simp [h, List.getLast?_cons, hlast]

/-- The required parameters are those before the first item that ends them. -/
theorem requireds_foldl_add :
    (items.foldl add p).requireds = p.requireds ++
      if p.isOpen then (items.takeWhile (!·.endsRequired)).filterMap ParameterItem.positional?
      else [] := by
  induction items generalizing p with
  | nil => simp
  | cons item items ih =>
    rw [List.foldl_cons, ih, requireds_add, isOpen_add, List.append_assoc]
    cases p.isOpen with
    | false => simp
    | true =>
      cases hends : item.endsRequired with
      | true => simp [hends, ParameterItem.positional?_of_endsRequired hends]
      | false => cases h : item.positional? <;> simp [hends, h]

/-- The posts are the required parameters from the first item on that ends the required ones. -/
theorem posts_foldl_add :
    (items.foldl add p).posts = p.posts ++
      (if p.isOpen then items.dropWhile (!·.endsRequired) else items).filterMap
        ParameterItem.positional? := by
  induction items generalizing p with
  | nil => simp
  | cons item items ih =>
    rw [List.foldl_cons, ih, posts_add, isOpen_add, List.append_assoc]
    cases p.isOpen with
    | false => cases h : item.positional? <;> simp [h]
    | true =>
      cases hends : item.endsRequired with
      | true => simp [hends, ParameterItem.positional?_of_endsRequired hends]
      | false => simp [hends]

end Run

/-- The groups of a list of parameters. -/
theorem ofItems_eq (items : List ParameterItem) :
    ofItems items =
      { requireds := (items.takeWhile (!·.endsRequired)).filterMap ParameterItem.positional?
        optionals := items.filterMap ParameterItem.optional?
        rest := (items.filterMap ParameterItem.rest?).getLast?
        posts := (items.dropWhile (!·.endsRequired)).filterMap ParameterItem.positional?
        keywords := items.filterMap ParameterItem.keyword?
        keywordRest := (items.filterMap ParameterItem.keywordRest?).getLast?
        block := (items.filterMap ParameterItem.block?).getLast? } := by
  have hrequireds := requireds_foldl_add {} items
  have hoptionals := foldl_add_eq_append {} items optionals_add
  have hrest := foldl_add_eq_or {} items rest_add
  have hposts := posts_foldl_add {} items
  have hkeywords := foldl_add_eq_append {} items keywords_add
  have hkeywordRest := foldl_add_eq_or {} items keywordRest_add
  have hblock := foldl_add_eq_or {} items block_add
  simp only [List.nil_append, Option.or_none, isOpen, Option.isNone_none, List.isEmpty_nil,
    Bool.and_self, if_true] at hrequireds hoptionals hrest hposts hkeywords hkeywordRest hblock
  rw [ofItems, ← hrequireds, ← hoptionals, ← hrest, ← hposts, ← hkeywords, ← hkeywordRest, ← hblock]

end Parameters

namespace SyntaxTree

/-- Nodes behind which a required parameter is a post. -/
def endsRequired (t : SyntaxTree) : Bool :=
  t.type == "optional_parameter" || t.type == "splat_parameter" || t.type == "forward_parameter"

/-- The last node of one of some types. -/
def lastOfType? (types : List String) (nodes : List SyntaxTree) : Option SyntaxTree :=
  (nodes.filter fun t => types.contains t.type).getLast?

section Items

variable (source : Source) (t : SyntaxTree) (nodes : List SyntaxTree)

/-- A node ends the requireds exactly when its item does. -/
theorem endsRequired_parameterItem : (t.parameterItem source).endsRequired = t.endsRequired := by
  unfold parameterItem
  cases t.fieldText? source "value" <;> split <;>
    simp_all [ParameterItem.endsRequired, endsRequired]

/-- The items in front of the first one that ends the required parameters. -/
theorem takeWhile_parameterItem :
    (nodes.map (parameterItem source)).takeWhile (!·.endsRequired) =
      (nodes.takeWhile (!·.endsRequired)).map (parameterItem source) := by
  rw [List.takeWhile_map]
  simp only [Function.comp_def, endsRequired_parameterItem]

/-- The items from the first one on that ends the required parameters. -/
theorem dropWhile_parameterItem :
    (nodes.map (parameterItem source)).dropWhile (!·.endsRequired) =
      (nodes.dropWhile (!·.endsRequired)).map (parameterItem source) := by
  rw [List.dropWhile_map]
  simp only [Function.comp_def, endsRequired_parameterItem]

/-- The nodes of two types are required parameters. -/
theorem positional?_parameterItem :
    (t.parameterItem source).positional? =
      if ["identifier", "destructured_parameter"].contains t.type then
        some (if t.type = "identifier" then .named (t.text source) else .destructured (t.text source))
      else none := by
  unfold parameterItem
  cases t.fieldText? source "value" <;> split <;> simp_all [ParameterItem.positional?]

/-- The nodes of one type are optional parameters. -/
theorem optional?_parameterItem :
    (t.parameterItem source).optional? =
      if t.type == "optional_parameter" then
        some ⟨t.fieldText source "name", t.fieldText source "value"⟩
      else none := by
  unfold parameterItem
  cases t.fieldText? source "value" <;> split <;> simp_all [ParameterItem.optional?]

/-- The nodes of two types are rest parameters. -/
theorem rest?_parameterItem :
    (t.parameterItem source).rest? =
      if ["splat_parameter", "forward_parameter"].contains t.type then
        some (if t.type = "splat_parameter" then .named (t.fieldText? source "name") else .forwarding)
      else none := by
  unfold parameterItem
  cases t.fieldText? source "value" <;> split <;> simp_all [ParameterItem.rest?]

/-- The nodes of one type are keywords, which are required without a value. -/
theorem keyword?_parameterItem :
    (t.parameterItem source).keyword? =
      if t.type == "keyword_parameter" then
        some ((t.fieldText? source "value").elim (.required (t.fieldText source "name"))
          (.optional (t.fieldText source "name")))
      else none := by
  unfold parameterItem
  cases t.fieldText? source "value" <;> split <;> simp_all [ParameterItem.keyword?]

/-- The nodes of three types are rests of the keywords. -/
theorem keywordRest?_parameterItem :
    (t.parameterItem source).keywordRest? =
      if ["hash_splat_parameter", "hash_splat_nil", "forward_parameter"].contains t.type then
        some (if t.type = "hash_splat_parameter" then .named (t.fieldText? source "name")
          else if t.type = "hash_splat_nil" then .refused else .forwarding)
      else none := by
  unfold parameterItem
  cases t.fieldText? source "value" <;> split <;> simp_all [ParameterItem.keywordRest?]

/-- The nodes of one type are blocks. -/
theorem block?_parameterItem :
    (t.parameterItem source).block? =
      if ["block_parameter"].contains t.type then some ⟨t.fieldText? source "name"⟩ else none := by
  unfold parameterItem
  cases t.fieldText? source "value" <;> split <;> simp_all [ParameterItem.block?]

end Items

/-- What the children of a parameter list have of a kind comes from those of certain types. -/
theorem filterMap_parameterItem {α : Type} {source : Source} {pick : ParameterItem → Option α}
    {kind : SyntaxTree → Bool} {read : SyntaxTree → α}
    (h : ∀ t : SyntaxTree, pick (t.parameterItem source) = if kind t then some (read t) else none)
    (nodes : List SyntaxTree) :
    (nodes.map (parameterItem source)).filterMap pick = (nodes.filter kind).map read := by
  rw [List.filterMap_map, ← List.filterMap_eq_map, List.filterMap_filter]
  exact List.filterMap_congr fun t _ => h t

end SyntaxTree

end RubySig.Ruby

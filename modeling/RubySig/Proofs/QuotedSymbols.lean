import RubySig.Listing
import RubySig.Proofs.TransparentNodes

/-!
# Names of quoted symbols

Between the quotes of a symbol stand plain pieces of text and parts of other kinds, such as escape
sequences. An interpolated part makes the symbol an expression without a name. Of all other parts
only plain pieces go into the name, and the rest is left out without notice. So every part counts
for the name exactly if all of them are plain, and the name is long enough for its parts exactly if
the plain ones have characters to spare for the others.
-/

namespace RubySig.Ruby.SyntaxTree

/-- What stands between the quotes of a symbol: the named children with some text, comments apart. -/
def quotedParts (source : Source) (t : SyntaxTree) : List SyntaxTree :=
  t.argumentNodes.filter fun child => child.text source != ""

/-- A plain piece of text. -/
def isPlain (t : SyntaxTree) : Bool :=
  t.type == "string_content"

/-- The same node over other children. -/
def withChildren (t : SyntaxTree) (children : List SyntaxTree) : SyntaxTree :=
  { t with children := children }

/-- Every part between the quotes counts: without it, the symbol is read as something else. -/
def EachPartCounts (source : Source) (t : SyntaxTree) : Prop :=
  ∀ before part after, t.children = before ++ part :: after → part ∈ t.quotedParts source →
    (t.withChildren (before ++ after)).readExpr source ≠ t.readExpr source

/-- The parts between the quotes that are not plain. -/
def otherParts (source : Source) (t : SyntaxTree) : List SyntaxTree :=
  (t.quotedParts source).filter fun part => !part.isPlain

/-- The characters of the plain parts without the first one of each. -/
def spareCharacters (source : Source) (t : SyntaxTree) : List Char :=
  ((t.quotedParts source).filter isPlain).flatMap fun part => (part.text source).toList.tail

variable {source : Source} {t : SyntaxTree}

/-- The parts between the quotes are the named children with a text that are no comments. -/
theorem mem_quotedParts {part : SyntaxTree} : part ∈ t.quotedParts source ↔
    part ∈ t.children ∧ part.named = true ∧ part.isComment = false ∧ part.text source ≠ "" := by
  simp only [quotedParts, argumentNodes, namedChildren, List.mem_filter, and_assoc, Bool.not_eq_true',
    bne_iff_ne, ne_eq]

/-- A quoted symbol has a name if no part of it is interpolated. -/
theorem readExpr_quoted (htype : t.type = "delimited_symbol") :
    t.readExpr source =
      if t.isInterpolated then .other (t.text source) else .symbol (some (t.quotedContent source)) := by
  cases hinterpolated : t.isInterpolated <;> simp [readExpr, symbolValue?, htype, hinterpolated]

/-- A quoted symbol is read as its content exactly when nothing in it is computed. -/
theorem readExpr_quoted_eq_symbol_iff (htype : t.type = "delimited_symbol") {value : String} :
    t.readExpr source = .symbol (some value) ↔
      t.isInterpolated = false ∧ t.quotedContent source = value := by
  rw [readExpr_quoted htype]
  cases t.isInterpolated <;> simp

/-- Nodes without a text add nothing to the texts in a row. -/
theorem join_filter_text_ne (nodes : List SyntaxTree) :
    String.join ((nodes.filter fun child => child.text source != "").map (text source)) =
      String.join (nodes.map (text source)) := by
  induction nodes with
  | nil => rfl
  | cons child nodes ih => by_cases h : child.text source = "" <;> simp [h, ih]

/-- The name of a quoted symbol is joined from its plain parts. -/
theorem quotedContent_eq_join_parts :
    t.quotedContent source =
      String.join (((t.quotedParts source).filter isPlain).map (text source)) := by
  rw [quotedContent_eq_join, quotedParts, List.filter_comm, join_filter_text_ne]
  rfl

/-- Texts in a row have a character for each of them and the characters to spare. -/
theorem length_flatMap_text {parts : List SyntaxTree} (h : ∀ part ∈ parts, part.text source ≠ "") :
    (parts.flatMap fun part => (part.text source).toList).length =
      parts.length + (parts.flatMap fun part => (part.text source).toList.tail).length := by
  induction parts with
  | nil => rfl
  | cons part parts ih =>
    rw [List.forall_mem_cons] at h
    have hpos : 0 < (part.text source).toList.length :=
      List.length_pos_iff.mpr (String.toList_eq_nil_iff.not.mpr h.1)
    simp only [List.flatMap_cons, List.length_append, List.length_cons, List.length_tail, ih h.2]
    omega

/-- The name has a character for each plain part, and those that these have to spare. -/
theorem length_quotedContent :
    (t.quotedContent source).length =
      ((t.quotedParts source).filter isPlain).length + (t.spareCharacters source).length := by
  rw [quotedContent_eq_join_parts, ← String.length_toList, String.toList_join, List.flatMap_map,
    spareCharacters]
  refine length_flatMap_text fun part hpart => ?_
  exact (mem_quotedParts.mp (List.mem_of_mem_filter hpart)).2.2.2

/-- The content of a symbol is the text of its plain named children in a row. -/
theorem quotedContent_withChildren (source : Source) (t : SyntaxTree) (nodes : List SyntaxTree) :
    (t.withChildren nodes).quotedContent source =
      String.join (((nodes.filter (·.named)).filter isPlain).map (text source)) :=
  rfl

/-- Taking a named child away takes its text out of the name if it is plain, and else nothing. -/
theorem quotedContent_without (source : Source) {before after : List SyntaxTree} {part : SyntaxTree}
    (hchildren : t.children = before ++ part :: after) (hnamed : part.named = true) :
    ∃ left right, (t.withChildren (before ++ after)).quotedContent source = left ++ right ∧
      t.quotedContent source = left ++ ((if part.isPlain then part.text source else "") ++ right) := by
  refine ⟨(t.withChildren before).quotedContent source, (t.withChildren after).quotedContent source, ?_, ?_⟩
  · simp [quotedContent_withChildren]
  · rw [show t.quotedContent source = (t.withChildren t.children).quotedContent source from rfl, hchildren]
    cases hplain : part.isPlain <;> simp [quotedContent_withChildren, hnamed, hplain]

/-- Taking a child away puts nothing computed in. -/
theorem isInterpolated_without {before after : List SyntaxTree} {part : SyntaxTree}
    (hchildren : t.children = before ++ part :: after) (h : t.isInterpolated = false) :
    (t.withChildren (before ++ after)).isInterpolated = false := by
  simp_all [isInterpolated, namedChildren, withChildren]

/-- A part counts exactly if it is plain. -/
theorem readExpr_without_ne_iff (htype : t.type = "delimited_symbol") (hknown : t.isInterpolated = false)
    {before after : List SyntaxTree} {part : SyntaxTree} (hchildren : t.children = before ++ part :: after)
    (hpart : part ∈ t.quotedParts source) :
    (t.withChildren (before ++ after)).readExpr source ≠ t.readExpr source ↔ part.isPlain = true := by
  obtain ⟨-, hnamed, -, htext⟩ := mem_quotedParts.mp hpart
  obtain ⟨left, right, hwithout, hwith⟩ := quotedContent_without source hchildren hnamed
  rw [readExpr_quoted htype, readExpr_quoted (t := t.withChildren (before ++ after)) htype, hknown,
    isInterpolated_without hchildren hknown, hwith, hwithout]
  cases part.isPlain with
  | false => simp
  | true =>
    have hshorter : left ++ right ≠ left ++ (part.text source ++ right) := by
      rw [Ne, String.append_right_inj, eq_comm, String.append_eq_right_iff]
      exact htext
    simpa using hshorter

/-- Each part of a known symbol counts for its name exactly when all parts are plain. -/
theorem eachPartCounts_iff (htype : t.type = "delimited_symbol") (hknown : t.isInterpolated = false) :
    t.EachPartCounts source ↔ ∀ part ∈ t.quotedParts source, part.isPlain = true := by
  constructor
  · intro h part hpart
    obtain ⟨before, after, hchildren⟩ := List.append_of_mem (mem_quotedParts.mp hpart).1
    exact (readExpr_without_ne_iff htype hknown hchildren hpart).mp (h before part after hchildren hpart)
  · intro h before part after hchildren hpart
    exact (readExpr_without_ne_iff htype hknown hchildren hpart).mpr (h part hpart)

/-- A name has at least as many characters as there are parts exactly if the plain parts have
characters to spare for all others. -/
theorem length_quotedParts_le_iff :
    (t.quotedParts source).length ≤ (t.quotedContent source).length ↔
      (t.otherParts source).length ≤ (t.spareCharacters source).length := by
  rw [length_quotedContent, List.length_eq_length_filter_add isPlain, otherParts]
  omega

/-- A quoted symbol with a name has it as an argument and in an alias too. Every part between its
quotes counts for the name if and only if all of them are plain, and the name has at least as many
characters as there are parts if and only if the plain ones have characters to spare for the others. -/
theorem quotedName_complete_iff (source : Source) (t : SyntaxTree) (value : String)
    (htype : t.type = "delimited_symbol") (hread : t.readExpr source = .symbol (some value)) :
    t.readArgument source = pure (.expr (.symbol (some value))) ∧
    aliasName source (some t) = .symbol (some value) ∧
    (t.EachPartCounts source ↔ ∀ part ∈ t.quotedParts source, part.type = "string_content") ∧
    ((t.quotedParts source).length ≤ value.length ↔
      (t.otherParts source).length ≤ (t.spareCharacters source).length) := by
  obtain ⟨hknown, rfl⟩ := (readExpr_quoted_eq_symbol_iff htype).mp hread
  refine ⟨?_, ?_, ?_, length_quotedParts_le_iff⟩
  · simp [readArgument, isDefinition, htype, hread]
  · simp [aliasName, isMethodName, htype, hread]
  · simpa [isPlain] using eachPartCounts_iff htype hknown

/-- The source of an attribute whose quoted name has a blank. -/
def blankSource : Source :=
  .ofString "attr_reader :\"q r\""

/-- The quoted symbol of `blankSource`. -/
def blankSymbol : SyntaxTree where
  type := "delimited_symbol"
  start := 12
  stop := 18
  children := [{ type := "string_content", start := 14, stop := 17 }]

/-- The one part of the symbol with a blank counts, and the name is no shorter than the parts. -/
theorem blankSymbol_complete :
    blankSymbol.readExpr blankSource = .symbol (some "q r") ∧ blankSymbol.EachPartCounts blankSource ∧
      (blankSymbol.quotedParts blankSource).length ≤ "q r".length := by
  have hread : blankSymbol.readExpr blankSource = .symbol (some "q r") := rfl
  obtain ⟨-, -, hcounts, hlength⟩ := quotedName_complete_iff blankSource blankSymbol "q r" rfl hread
  exact ⟨hread, hcounts.mpr (by decide), hlength.mpr (by decide)⟩

/-- The source of an attribute whose quoted name has an escape sequence. -/
def escapedSource : Source :=
  .ofString "attr_reader :\"a\\tb\""

/-- The quoted symbol of `escapedSource`. -/
def escapedSymbol : SyntaxTree where
  type := "delimited_symbol"
  start := 12
  stop := 19
  children := [
    { type := ":\"", start := 12, stop := 14, named := false },
    { type := "string_content", start := 14, stop := 15 },
    { type := "escape_sequence", start := 15, stop := 17 },
    { type := "string_content", start := 17, stop := 18 },
    { type := "\"", start := 18, stop := 19, named := false }]

/-- The tree of `escapedSource`. -/
def escapedTree : SyntaxTree where
  type := "program"
  start := 0
  stop := 19
  children := [{
    type := "call"
    start := 0
    stop := 19
    children := [
      { type := "identifier", start := 0, stop := 11, field := some "method" },
      { type := "argument_list", start := 12, stop := 19, field := some "arguments",
        children := [escapedSymbol] }] }]

/-- The escape sequence is one of three parts but not in the name, and the attribute is listed
under the two characters that are left. -/
theorem escapedSymbol_incomplete :
    escapedSymbol.readExpr escapedSource = .symbol (some "ab") ∧
    ¬ (escapedSymbol.quotedParts escapedSource).length ≤ "ab".length ∧
    (Listing.rows {} true (Outline.ofTree ⟨escapedSource, fun _ => none⟩ escapedTree).value).value =
      [{ line := "1", owner := "", kind := "attr_reader", name := "ab", visibility := "public",
         signature := "attr_reader ab: untyped" }] :=
  ⟨rfl, by decide, rfl⟩

end RubySig.Ruby.SyntaxTree

import RubySig.Proofs.ListingMarkup
import RubySig.Proofs.OutlineExactness
import RubySig.Proofs.SourceCharacters

/-!
# Names that a listing copies

The owner of an entry and the signature of an alias with a member are put into a row as they come,
not escaped. So a tag in the name of a class or in a quoted method name is live in the listing. A
source is safe from that, whatever tree stands over it, exactly if it lacks a character that every
tag needs: one of the two brackets, or all of those that may follow the opening one.
-/

namespace RubySig.Listing

open RubySig.Rbs
open RubySig.Ruby
open RubySig.Outline
open RubySig.Text.Markup
open RubySig.Text.Utf8

/-- The texts that a row copies from its entry: the owner, and both names of an alias. -/
structure CopiesNames (e : Entry) (r : Row) : Prop where
  owner : r.owner = e.owner.getD ""
  signature : ∀ d member, e.declaration = .aliasing d → d.member = .ok member →
    r.signature = "alias " ++ member.newName ++ " " ++ member.oldName

/-- The texts that a row copies from its entry hold no live tag. -/
structure NamesInert (e : Entry) (r : Row) : Prop where
  owner : Inert r.owner
  signature : ∀ d member, e.declaration = .aliasing d → d.member = .ok member → Inert r.signature

/-- Every row copies the names of its entry as they are. -/
theorem copiesNames_row (settings : Settings) (e : Entry) : CopiesNames e (row settings e).value := by
  refine ⟨rfl, ?_⟩
  intro d member hd hmember
  simp [row, hd, describe, describeAlias, hmember]

/-- A character that can begin a tag has one byte and is not the null character. -/
theorem toNat_of_beginsTag {c : Char} (h : beginsTag c = true) : c.toNat ≠ 0 ∧ c.toNat < 0x80 := by
  simp only [beginsTag, Bool.or_eq_true, Bool.and_eq_true, decide_eq_true_eq] at h
  obtain ((⟨hlow, hhigh⟩ | rfl) | rfl) | rfl := h
  · have hlow : 97 ≤ c.toNat := UInt32.le_iff_toNat_le.mp hlow
    have hhigh : c.toNat ≤ 122 := UInt32.le_iff_toNat_le.mp hhigh
    omega
  all_goals decide

/-- Characters of the source, colons and blanks are enough for a tag only if the source is. -/
theorem spellsTag_bytes {bytes : List UInt8} {cs : List Char} (h : SpellsTag cs)
    (hcs : ∀ c ∈ cs, (c = ':' ∨ c = ' ') ∨ OfBytes bytes c) : SpellsTag (bytes.map byteChar) := by
  obtain ⟨hopen, ⟨c, hc, hbegins⟩, hclose⟩ := h
  have hbytes := toNat_of_beginsTag hbegins
  refine ⟨?_, ⟨c, ?_, hbegins⟩, ?_⟩
  · exact (hcs '[' hopen).resolve_left (by decide) (by decide) (by decide)
  · refine (hcs c hc).resolve_left ?_ hbytes.1 hbytes.2
    rintro (rfl | rfl) <;> contradiction
  · exact (hcs ']' hclose).resolve_left (by decide) (by decide) (by decide)

/-- An owner holds no live tag if the bytes of the source do not spell one. -/
theorem inert_owner {source : Source} (hsource : ¬ SpellsTag (source.toList.map byteChar))
    (scopes : List SyntaxTree) : Inert ((ownerOf source scopes).getD "") := by
  rw [inert_iff]
  by_contra htags
  refine hsource (spellsTag_bytes (spellsTag_of_tagsFrom_ne_nil htags) fun c hc => ?_)
  cases howner : ownerOf source scopes with
  | none => simp [howner] at hc
  | some owner =>
    rw [howner, Option.getD_some] at hc
    exact (ofBytes_of_mem_owner howner hc).imp_left .inl

/-- The signature of an alias holds no live tag if the bytes of the source do not spell one. -/
theorem inert_aliasSignature {source : Source} (hsource : ¬ SpellsTag (source.toList.map byteChar))
    {new old : String} (hnew : source.Spells new) (hold : source.Spells old) :
    Inert ("alias " ++ new ++ " " ++ old) := by
  rw [inert_iff]
  by_contra htags
  have hnames : tags ("alias " ++ new ++ " " ++ old) =
      tagsFrom 6 0 (new.toList ++ ' ' :: old.toList) := by
    simp [tags, tagsFrom]
  rw [hnames] at htags
  refine hsource (spellsTag_bytes (spellsTag_of_tagsFrom_ne_nil htags) fun c hc => ?_)
  rw [List.mem_append, List.mem_cons] at hc
  obtain hc | rfl | hc := hc
  · exact .inr (hnew c hc)
  · exact .inl (.inr rfl)
  · exact .inr (hold c hc)

/-- Without the characters of a tag in the source no copied name holds a live one. -/
theorem namesInert_row {ctx : Context} (hsource : ¬ SpellsTag (ctx.source.toList.map byteChar))
    (settings : Settings) {root : SyntaxTree} {e : Entry} (he : e ∈ (ofTree ctx root).value) :
    NamesInert e (row settings e).value := by
  rw [ofTree_value, List.mem_filterMap] at he
  obtain ⟨site, -, hentry⟩ := he
  have hcopies := copiesNames_row settings e
  constructor
  · obtain ⟨declaration, -, rfl⟩ := Option.map_eq_some_iff.mp hentry
    rw [hcopies.owner]
    exact inert_owner hsource site.body.scopes
  · intro d member hd hmember
    rw [hcopies.signature d member hd hmember]
    have hdeclares := (declares_iff_of_entryAt? hentry (.aliasing d)).mpr hd.symm
    obtain ⟨hnew, hold⟩ := spells_of_alias hdeclares hmember
    exact inert_aliasSignature hsource hnew hold

/-- A piece of a quoted symbol that spans one byte. -/
def bytePiece (position : Nat) : SyntaxTree where
  type := "string_content"
  start := position
  stop := position + 1

/-- An alias whose new name is put together from single bytes, and whose old name is empty. -/
def aliasOfPieces (positions : List Nat) : SyntaxTree where
  type := "alias"
  start := 0
  stop := 0
  children := [
    { type := "delimited_symbol", start := 0, stop := 0, field := some "name",
      children := positions.map bytePiece },
    { type := "delimited_symbol", start := 0, stop := 0, field := some "alias" }]

/-- A tree with one statement. -/
def treeOf (statement : SyntaxTree) : SyntaxTree where
  type := "program"
  start := 0
  stop := 0
  children := [statement]

/-- Every character of one byte in the source is the text of a piece of it. -/
theorem exists_bytePiece {source : Source} {c : Char} (hc : c ∈ source.toList.map byteChar)
    (hbyte : c.toNat < 0x80) : ∃ position, (bytePiece position).text source = String.singleton c := by
  obtain ⟨b, hb, rfl⟩ := List.mem_map.mp hc
  rw [toNat_byteChar] at hbyte
  obtain ⟨position, hposition⟩ := List.mem_iff_getElem?.mp hb
  have hextract : (source.extract position (position + 1)).toList = [b] := by
    rw [Array.toList_extract, List.extract, Nat.add_sub_cancel_left, List.take_one, List.head?_drop,
      hposition]
    rfl
  refine ⟨position, ?_⟩
  rw [SyntaxTree.text, bytePiece, hextract, decode_singleton hbyte]
  rfl

/-- The tree of an alias made of pieces has this alias for its only entry. -/
theorem ofTree_aliasOfPieces (ctx : Context) (positions : List Nat) :
    (ofTree ctx (treeOf (aliasOfPieces positions))).value =
      [⟨.aliasing ⟨(aliasOfPieces positions).readAlias ctx.source, ctx.comments 1⟩, none, .pub⟩] := by
  rfl

/-- The new name of an alias made of pieces is the text of its pieces in a row. -/
theorem member_aliasOfPieces (source : Source) (comments : Option CommentBlock) (positions : List Nat) :
    AliasDeclaration.member ⟨(aliasOfPieces positions).readAlias source, comments⟩ = .ok {
        newName := String.join (positions.map fun position => (bytePiece position).text source)
        oldName := ""
        comment := CommentBlock.documentation comments } := by
  have hsymbol (field : String) (positions : List Nat) : SyntaxTree.aliasName source (some
      { type := "delimited_symbol", start := 0, stop := 0, field := some field,
        children := positions.map bytePiece }) =
      .symbol (some (String.join (positions.map fun position => (bytePiece position).text source))) := by
    have hnamed : (positions.map bytePiece).filter (·.named) = positions.map bytePiece := by
      simp [List.filter_map, Function.comp_def, bytePiece]
    have hcontent : (positions.map bytePiece).filter (·.type == "string_content") =
        positions.map bytePiece := by
      simp [List.filter_map, Function.comp_def, bytePiece]
    have hinterpolated : (positions.map bytePiece).any (·.type == "interpolation") = false := by
      simp [bytePiece]
    simp [SyntaxTree.aliasName, SyntaxTree.isMethodName, SyntaxTree.readExpr,
      SyntaxTree.isInterpolated, SyntaxTree.symbolValue?, SyntaxTree.quotedContent, SyntaxTree.namedChildren,
      hnamed, hcontent, hinterpolated, Function.comp_def]
  have hread : (aliasOfPieces positions).readAlias source =
      ⟨.symbol (some (String.join (positions.map fun position => (bytePiece position).text source))),
        .symbol (some ""), 1⟩ :=
    congrArg₂ (AliasStatement.mk · · 1) (hsymbol "name" positions) (hsymbol "alias" [])
  rw [hread]
  rfl

/-- Over a source with the characters of a tag some tree has a live tag in a copied name. -/
theorem not_forall_namesInert {source : Source} (hsource : SpellsTag (source.toList.map byteChar))
    (settings : Settings) (comments : Int → Option CommentBlock) :
    ¬ ∀ root, ∀ e ∈ (ofTree ⟨source, comments⟩ root).value, NamesInert e (row settings e).value := by
  intro hnames
  obtain ⟨hopen, ⟨c, hc, hbegins⟩, hclose⟩ := hsource
  -- A quoted name can take its pieces from anywhere, so the three characters need not be neighbours.
  obtain ⟨i, hi⟩ := exists_bytePiece hopen (by decide)
  obtain ⟨j, hj⟩ := exists_bytePiece hc (toNat_of_beginsTag hbegins).2
  obtain ⟨k, hk⟩ := exists_bytePiece hclose (by decide)
  have hentry := hnames (treeOf (aliasOfPieces [i, j, k]))
  rw [ofTree_aliasOfPieces, List.forall_mem_singleton] at hentry
  have hmember := member_aliasOfPieces source (comments 1) [i, j, k]
  have hinert := hentry.signature _ _ rfl hmember
  rw [(copiesNames_row settings _).signature _ _ rfl hmember, inert_iff] at hinert
  have htag : opensTag [c, ']', ' '] = true := by simp [opensTag, hbegins, closes]
  simp [hi, hj, hk, tags, tagsFrom, htag] at hinert

/-- The owner and the names of an alias stand in a row as they come. They are free of live tags over
every tree if and only if the source lacks a character that every tag needs. -/
theorem rows_copy_names (settings : Settings) (source : Source) :
    (∀ comments root showPrivate, List.Forall₂ CopiesNames
      ((ofTree ⟨source, comments⟩ root).value.filter (isShown showPrivate))
      (rows settings showPrivate (ofTree ⟨source, comments⟩ root).value).value) ∧
    ((∀ comments root showPrivate, List.Forall₂ NamesInert
      ((ofTree ⟨source, comments⟩ root).value.filter (isShown showPrivate))
      (rows settings showPrivate (ofTree ⟨source, comments⟩ root).value).value) ↔
        ¬ SpellsTag (source.toList.map byteChar)) := by
  simp only [rows_value, List.forall₂_map_right_iff, List.forall₂_same, List.mem_filter, and_imp]
  refine ⟨fun _ _ _ e _ _ => copiesNames_row settings e, fun hnames hsource => ?_,
    fun hsource _ _ _ e he _ => namesInert_row hsource settings he⟩
  exact not_forall_namesInert hsource settings (fun _ => none) fun root e he =>
    hnames _ root true e he rfl

/-- The source of a class with a bracket in its name and an alias with one in its new name. -/
def bracketedSource : Source :=
  .ofString "class foo[b]::Bar\n  alias :\"a[b]\" c\nend"

/-- The tree of `bracketedSource`. -/
def bracketedTree : SyntaxTree where
  type := "program"
  start := 0
  stop := 39
  children := [{
    type := "class"
    start := 0
    stop := 39
    children := [
      { type := "scope_resolution", start := 6, stop := 17, field := some "name" },
      { type := "body_statement", start := 20, stop := 35, row := 1, field := some "body"
        children := [{
          type := "alias"
          start := 20
          stop := 35
          row := 1
          children := [
            { type := "delimited_symbol", start := 26, stop := 33, row := 1, field := some "name",
              children := [{ type := "string_content", start := 28, stop := 32, row := 1 }] },
            { type := "identifier", start := 34, stop := 35, row := 1, field := some "alias" }] }] }] }]

/-- In the only row the name of the alias is escaped, but the owner and the signature are not, and
both hold a live tag. -/
theorem bracketedTree_names_live :
    (rows {} true (ofTree ⟨bracketedSource, fun _ => none⟩ bracketedTree).value).value =
      [{ line := "2", owner := "foo[b]::Bar", kind := "alias", name := "a\\[b]",
         visibility := "public", signature := "alias a[b] c" }] ∧
      ¬ Inert "foo[b]::Bar" ∧ ¬ Inert "alias a[b] c" :=
  ⟨rfl, by decide, by decide⟩

end RubySig.Listing

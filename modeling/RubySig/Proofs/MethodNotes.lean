import RubySig.Declaration.Member
import RubySig.Proofs.CommentNotes
import RubySig.Proofs.SignatureSlots
import Mathlib.Data.List.Basic

/-!
# What a method takes from its comment

Of the notes next to a definition a method asks for five things: the method types that are asserted,
the first return type, the last type of each of its parameters, the passthrough items, and the text
around the notes. Comments that agree in these give the same member and the same reports, whatever
else they say; so notes of different topics can be put in any order, and notes that the method does
not ask for can be put in and left out.

Asserted method types take the place of the parameter list: with them the overloads are these types
in order, without them there is one overload.
-/

namespace RubySig

open RubySig.Rbs
open RubySig.Ruby

namespace Ruby

/-- The name of a rest parameter. -/
def Rest.name? : Rest → Option String
  | .named name => name
  | .forwarding => none

/-- The name of a keyword parameter. -/
def Keyword.name : Keyword → String
  | .required name => name
  | .optional name _ => name

/-- The name of the rest of the keywords. -/
def KeywordRest.name? : KeywordRest → Option String
  | .named name => name
  | .refused => none
  | .forwarding => none

/-- The names that parameters carry. -/
def Parameters.names (p : Parameters) : List String :=
  p.requireds.filterMap Positional.name? ++ p.optionals.map OptionalParameter.name
    ++ (p.rest.bind Rest.name?).toList ++ p.posts.filterMap Positional.name?
    ++ p.keywords.map Keyword.name ++ (p.keywordRest.bind KeywordRest.name?).toList
    ++ (p.block.bind BlockParameter.name).toList

/-- The names that the parameters of a definition carry. -/
def Definition.parameterNames (d : Definition) : List String :=
  (d.parameters.getD {}).names

end Ruby

/-! ## The type of a variable -/

/-- The type, if any, that a note on the variable of this name states. -/
def Note.typeOf? (name : String) : Note → Option (Option Ty)
  | .var note => if note.name = some name then some note.type else none
  | _ => none

/-- The type in the last note on the variable of this name; none if there is no such note, or no type
in it. -/
def CommentBlock.lastType (c : CommentBlock) (name : String) : Option Ty :=
  (c.notes.filterMap (Note.typeOf? name)).getLast?.join

/-- A note counts for a name if it is on the variable of that name and the name is not empty. -/
theorem Note.namedType?_filter (name : String) (note : Note) :
    (note.namedType?.filter fun pair => pair.1 == name).map Prod.snd =
      if name.isEmpty then none else note.typeOf? name := by
  cases note with
  | var note =>
    obtain ⟨source, _ | key, type⟩ := note
    · simp [namedType?, typeOf?]
    · by_cases hkey : key = name
      · subst hkey
        by_cases hempty : key.isEmpty = true <;> simp [namedType?, typeOf?, hempty]
      · by_cases hempty : key.isEmpty = true <;> simp [namedType?, typeOf?, hempty, hkey]
  | assertion | returns | application | passthrough => simp [namedType?, typeOf?]

/-- The type under a name is the one in the last note on it. Notes on the empty name do not count. -/
theorem statedType_variableTypes (c : CommentBlock) (name : String) :
    Signature.statedType (CommentBlock.variableTypes (some c)) name =
      if name.isEmpty then none else c.lastType name := by
  have hlookup : (CommentBlock.variableTypes (some c)).lookup name =
      (c.notes.filterMap fun note => if name.isEmpty then none else note.typeOf? name).getLast? := by
    simp only [CommentBlock.variableTypes, CommentBlock.notesOf, Keyed.lookup_ofPairs,
      List.filter_filterMap, ← List.getLast?_map, List.map_filterMap, Note.namedType?_filter]
  have hstated (vars : Signature.VariableTypes) :
      Signature.statedType vars name = (vars.lookup name).join := by
    unfold Signature.statedType
    cases vars.lookup name <;> rfl
  rw [hstated, hlookup, CommentBlock.lastType]
  split
  · rw [List.filterMap_none]; rfl
  · rfl

/-! ## Signatures -/

namespace Signature

variable {vars vars' : VariableTypes}

/-- The type of a variable depends on what is stated for its name alone. -/
theorem typeOf_congr {name : String} (h : statedType vars name = statedType vars' name) :
    typeOf vars name = typeOf vars' name := by
  rw [typeOf, h, typeOf]

/-- The type of the rest depends on what is stated for its name alone, if it has one. -/
theorem restType_congr (container : String) (pick : List Ty → Option Ty) {name : Option String}
    (h : ∀ n, name = some n → statedType vars n = statedType vars' n) :
    restType vars container pick name = restType vars' container pick name := by
  cases name with
  | none => rfl
  | some n => simp only [restType, h n rfl]

/-- The slot of a required parameter depends on what is stated for its name alone. -/
theorem requiredSlot_congr {p : Positional}
    (h : ∀ n, p.name? = some n → statedType vars n = statedType vars' n) :
    requiredSlot vars p = requiredSlot vars' p := by
  cases p with
  | named name => simp only [requiredSlot, typeOf_congr (h name rfl)]
  | destructured => rfl

/-- The slot of an optional parameter depends on what is stated for its name alone. -/
theorem optionalSlot_congr {p : OptionalParameter}
    (h : statedType vars p.name = statedType vars' p.name) :
    optionalSlot vars p = optionalSlot vars' p := by
  simp only [optionalSlot, typeOf_congr h]

/-- The slot of the rest depends on what is stated for its name alone. -/
theorem restSlot_congr {r : Rest} (h : ∀ n, r.name? = some n → statedType vars n = statedType vars' n) :
    restSlot vars r = restSlot vars' r := by
  cases r with
  | named name => simp only [restSlot, restType_congr _ _ (show ∀ n, name = some n → _ from h)]
  | forwarding => rfl

/-- The slot of a required keyword depends on what is stated for its name alone. -/
theorem requiredKeywordSlot_congr {k : Keyword}
    (h : statedType vars k.name = statedType vars' k.name) :
    requiredKeywordSlot vars k = requiredKeywordSlot vars' k := by
  cases k with
  | required name => simp only [requiredKeywordSlot, typeOf_congr (show statedType vars name = _ from h)]
  | optional => rfl

/-- The slot of an optional keyword depends on what is stated for its name alone. -/
theorem optionalKeywordSlot_congr {k : Keyword}
    (h : statedType vars k.name = statedType vars' k.name) :
    optionalKeywordSlot vars k = optionalKeywordSlot vars' k := by
  cases k with
  | required => rfl
  | optional name =>
    simp only [optionalKeywordSlot, typeOf_congr (show statedType vars name = _ from h)]

/-- The slot of the rest of the keywords depends on what is stated for its name alone. -/
theorem keywordRestSlot_congr {r : KeywordRest}
    (h : ∀ n, r.name? = some n → statedType vars n = statedType vars' n) :
    keywordRestSlot vars r = keywordRestSlot vars' r := by
  cases r with
  | named name => simp only [keywordRestSlot, restType_congr _ _ (show ∀ n, name = some n → _ from h)]
  | refused => rfl
  | forwarding => rfl

/-- The slot of the block depends on what is stated for its name alone. -/
theorem blockSlot_congr {b : BlockParameter}
    (h : ∀ n, b.name = some n → statedType vars n = statedType vars' n) :
    blockSlot vars b = blockSlot vars' b := by
  obtain ⟨_ | name⟩ := b
  · rfl
  · simp only [blockSlot, h name rfl]

/-- The slots of a parameter list depend on the types stated for its names alone. -/
theorem functionType_congr (returnType : Option Ty) {p : Parameters}
    (h : ∀ name ∈ p.names, statedType vars name = statedType vars' name) :
    functionType vars returnType p = functionType vars' returnType p := by
  simp only [Parameters.names, List.mem_append, List.mem_filterMap, List.mem_map,
    Option.mem_toList, Option.bind_eq_some_iff] at h
  have hrequireds : p.requireds.filterMap (requiredSlot vars) = p.requireds.filterMap (requiredSlot vars') :=
    List.filterMap_congr fun q hq => requiredSlot_congr fun n hn => h n (by grind)
  have hoptionals : p.optionals.map (optionalSlot vars) = p.optionals.map (optionalSlot vars') :=
    List.map_congr_left fun q hq => optionalSlot_congr (h q.name (by grind))
  have hrest : p.rest.bind (restSlot vars) = p.rest.bind (restSlot vars') :=
    Option.bind_congr fun r hr => restSlot_congr fun n hn => h n (by grind)
  have hkeywordRest : p.keywordRest.bind (keywordRestSlot vars) = p.keywordRest.bind (keywordRestSlot vars') :=
    Option.bind_congr fun r hr => keywordRestSlot_congr fun n hn => h n (by grind)
  have hrequiredKeywords : p.keywords.filterMap (requiredKeywordSlot vars) =
      p.keywords.filterMap (requiredKeywordSlot vars') :=
    List.filterMap_congr fun k hk => requiredKeywordSlot_congr (h k.name (by grind))
  have hoptionalKeywords : p.keywords.filterMap (optionalKeywordSlot vars) =
      p.keywords.filterMap (optionalKeywordSlot vars') :=
    List.filterMap_congr fun k hk => optionalKeywordSlot_congr (h k.name (by grind))
  simp only [functionType, hrequireds, hoptionals, hrest, hkeywordRest, hrequiredKeywords,
    hoptionalKeywords]

/-- The method type of a parameter list, and what is reported about it, depend on the types stated
for its names alone. -/
theorem methodType_congr (returnType : Option Ty) {parameters : Option Parameters}
    (h : ∀ name ∈ (parameters.getD {}).names, statedType vars name = statedType vars' name) :
    methodType vars returnType parameters = methodType vars' returnType parameters := by
  have hblock : blockSlot? vars (parameters.getD {}).block = blockSlot? vars' (parameters.getD {}).block := by
    cases hb : (parameters.getD {}).block with
    | none => rfl
    | some b =>
      refine blockSlot_congr fun n hn => h n ?_
      simp [Parameters.names, hb, hn]
  simp only [methodType, functionType_congr returnType h, hblock]

end Signature

/-! ## Comments that agree -/

/-- Two comments agree for a definition if their notes say the same about what its method asks. -/
structure CommentBlock.AgreeFor (d : Definition) (a b : CommentBlock) : Prop where
  payloads : payloads (some a) = payloads (some b)
  firstReturn : ∃ type, FirstReturn (some a) type ∧ FirstReturn (some b) type
  lastType : ∀ name ∈ d.parameterNames, a.lastType name = b.lastType name
  items : items (some a) = items (some b)
  content : a.content = b.content

/-- What a note is about. -/
inductive Note.Topic where
  | assertion
  | returns
  | var (name : Option String)
  | application
  | passthrough
  deriving DecidableEq

namespace Note

/-- The topic of a note. -/
def topic : Note → Topic
  | assertion _ => .assertion
  | returns _ => .returns
  | var note => .var note.name
  | application _ => .application
  | passthrough _ => .passthrough

/-- Whether the method of a definition asks for a note: neither for a plain type, nor for type
arguments, nor for the type of a variable that is not a parameter. -/
def concerns (d : Definition) : Note → Bool
  | assertion ⟨_, .method _⟩ => true
  | assertion ⟨_, .plain _⟩ => false
  | returns _ => true
  | var note => note.name.any (d.parameterNames.contains ·)
  | application _ => false
  | passthrough _ => true

end Note

namespace CommentBlock

variable {d : Definition} {a b : CommentBlock}

/-- The notes of one topic that the method of a definition asks for, in order. -/
def about (c : CommentBlock) (d : Definition) (topic : Note.Topic) : List Note :=
  c.notes.filter fun note => note.concerns d && note.topic == topic

/-- A question that only notes of one topic answer needs these notes alone. -/
theorem filterMap_about {α : Type} {answer : Note → Option α} {topic : Note.Topic}
    (hanswer : ∀ note, (answer note).isSome → note.concerns d && note.topic == topic)
    (c : CommentBlock) : (c.about d topic).filterMap answer = c.notes.filterMap answer := by
  rw [about, List.filterMap_filter]
  refine List.filterMap_congr fun note _ => ?_
  cases hnote : answer note with
  | none => simp
  | some => rw [if_pos (hanswer note (by rw [hnote]; rfl))]

/-- Comments with the same notes on a topic answer alike what only these notes answer. -/
theorem filterMap_notes_congr {α : Type} {answer : Note → Option α} {topic : Note.Topic}
    (hanswer : ∀ note, (answer note).isSome → note.concerns d && note.topic == topic)
    (h : a.about d topic = b.about d topic) : a.notes.filterMap answer = b.notes.filterMap answer := by
  rw [← filterMap_about hanswer a, h, filterMap_about hanswer b]

/-- Comments with the same text and the same notes on each topic agree. -/
theorem agreeFor_of_about (hcontent : a.content = b.content)
    (h : ∀ topic, a.about d topic = b.about d topic) : a.AgreeFor d b where
  payloads := by
    have hanswer : ∀ note : Note, note.payload?.isSome →
        note.concerns d && note.topic == .assertion := by
      rintro (⟨_, _ | _⟩ | _ | _ | _ | _) <;> simp [Note.payload?, Note.concerns, Note.topic]
    exact filterMap_notes_congr hanswer (h _)
  firstReturn := by
    have hanswer : ∀ note : Note, note.returnType?.isSome →
        note.concerns d && note.topic == .returns := by
      rintro (_ | _ | _ | _ | _) <;> simp [Note.returnType?, Note.concerns, Note.topic]
    have hreturn : returnType (some b) = returnType (some a) := by
      simp only [returnType, notesOf, ← List.head?_filterMap, filterMap_notes_congr hanswer (h _)]
    exact ⟨_, (returnType_eq_iff _ _).mp rfl, (returnType_eq_iff _ _).mp hreturn⟩
  lastType := by
    intro name hname
    have hanswer : ∀ note : Note, (note.typeOf? name).isSome →
        note.concerns d && note.topic == .var (some name) := by
      rintro (_ | _ | _ | _ | _) <;> simp +contextual [Note.typeOf?, Note.concerns, Note.topic, hname]
    rw [CommentBlock.lastType, filterMap_notes_congr hanswer (h _), CommentBlock.lastType]
  items := by
    have hanswer : ∀ note : Note, note.passthrough?.isSome →
        note.concerns d && note.topic == .passthrough := by
      rintro (_ | _ | _ | _ | _) <;> simp [Note.passthrough?, Note.concerns, Note.topic]
    exact congrArg (List.flatMap Passthrough.contents) (filterMap_notes_congr hanswer (h _))
  content := hcontent

end CommentBlock

namespace MethodDeclaration

variable {settings : Settings} {d : Definition} {tag : Option Visibility}

/-- Comments that agree for a definition give the same method types and the same reports. -/
theorem methodTypes_congr {a b : CommentBlock} (h : a.AgreeFor d b) :
    methodTypes ⟨d, some a, tag⟩ = methodTypes ⟨d, some b, tag⟩ := by
  have hstated : ∀ name ∈ (d.parameters.getD {}).names,
      Signature.statedType (CommentBlock.variableTypes (some a)) name =
        Signature.statedType (CommentBlock.variableTypes (some b)) name := by
    intro name hname
    rw [statedType_variableTypes, statedType_variableTypes, h.lastType name hname]
  obtain ⟨type, ha, hb⟩ := h.firstReturn
  have hreturn : CommentBlock.returnType (some a) = CommentBlock.returnType (some b) := by
    rw [(CommentBlock.returnType_eq_iff _ _).mpr ha, (CommentBlock.returnType_eq_iff _ _).mpr hb]
  simp only [methodTypes, CommentBlock.methodTypes_eq_payloads, h.payloads, hreturn,
    Signature.methodType_congr _ hstated]

/-- Without asserted method types a method has one overload, with them it has these. -/
theorem overloads_member (m : MethodDeclaration) :
    (m.member settings).value.overloads =
      match CommentBlock.payloads m.comments with
      | [] => [⟨(Signature.methodType (CommentBlock.variableTypes m.comments)
          (CommentBlock.returnType m.comments) m.definition.parameters).value, []⟩]
      | types => types.map (⟨·, []⟩) := by
  simp only [member, overloads, methodTypes, CommentBlock.methodTypes_eq_payloads, Logged.value_bind,
    Logged.value_pure]
  cases CommentBlock.payloads m.comments <;> rfl

/-- The member of a method and the reports about it depend on what the method asks of its comment.
Other notes and the order of topics do not matter, and asserted method types replace whatever the
parameters and the other notes give. -/
theorem member_determined_by_notes (settings : Settings) (d : Definition)
    (tag : Option Visibility) :
    (∀ a b : CommentBlock, a.AgreeFor d b →
      member settings ⟨d, some a, tag⟩ = member settings ⟨d, some b, tag⟩) ∧
    (∀ a b : CommentBlock, a.content = b.content →
      (∀ topic, a.about d topic = b.about d topic) →
        member settings ⟨d, some a, tag⟩ = member settings ⟨d, some b, tag⟩) ∧
    ∀ comments : Option CommentBlock,
      (CommentBlock.payloads comments ≠ [] →
        (member settings ⟨d, comments, tag⟩).value.overloads =
          (CommentBlock.payloads comments).map (⟨·, []⟩)) ∧
      (CommentBlock.payloads comments = [] →
        (member settings ⟨d, comments, tag⟩).value.overloads.length = 1) ∧
      (member settings ⟨d, comments, tag⟩).value.overloads ≠ [] := by
  have hagree : ∀ a b : CommentBlock, a.AgreeFor d b →
      member settings ⟨d, some a, tag⟩ = member settings ⟨d, some b, tag⟩ := by
    intro a b h
    simp only [member, kind, overloads, methodTypes_congr h, annotations,
      CommentBlock.passthroughContents_eq_items, h.items, CommentBlock.documentation, h.content]
  refine ⟨hagree, fun a b hcontent h => hagree a b (CommentBlock.agreeFor_of_about hcontent h), ?_⟩
  intro comments
  rw [overloads_member]
  cases CommentBlock.payloads comments <;> simp

/-- The definition `def insert(list, *items, &block)`. -/
def insertDefinition : Definition where
  name := "insert"
  parameters := some {
    requireds := [.named "list"]
    rest := some (.named (some "items"))
    block := some { name := some "block" } }

/-- A comment that types `list` twice and the return value twice. -/
def insertComment : CommentBlock where
  notes := [
    .var { name := some "list", type := some (.base .top) },
    .returns { type := .base .void },
    .var { name := some "list", type := some (.base .bool) },
    .returns { type := .base .top }]
  content := "Inserts items."

/-- A comment that types `list` once, after a plain assertion and a note on another variable, and has
another second return type. -/
def insertCommentRevised : CommentBlock where
  notes := [
    .assertion { type := .plain (.base .nil) },
    .var { name := some "@size", type := some (.base .top) },
    .var { name := some "list", type := some (.base .bool) },
    .returns { type := .base .void },
    .returns { type := .base .nil }]
  content := "Inserts items."

/-- The revised comment in another order and without the notes that do not matter. -/
def insertCommentBrief : CommentBlock where
  notes := [
    .returns { type := .base .void },
    .var { name := some "list", type := some (.base .bool) },
    .returns { type := .base .nil }]
  content := "Inserts items."

/-- A comment with two method types around the type of a parameter and a return type. -/
def insertCommentAsserted (first second : MethodType) : CommentBlock where
  notes := [
    .assertion { type := .method first },
    .var { name := some "list", type := some (.base .bool) },
    .returns { type := .base .void },
    .assertion { type := .method second }]

/-- A comment with the same two method types next to each other, after a plain type and with a second
return type. -/
def insertCommentListed (first second : MethodType) : CommentBlock where
  notes := [
    .returns { type := .base .void },
    .returns { type := .base .top },
    .assertion { type := .plain (.base .nil) },
    .assertion { type := .method first },
    .assertion { type := .method second },
    .var { name := some "list", type := some (.base .bool) }]

/-- Three comments on `insert` give one member, and two with the same method types give these types. -/
theorem insert_member_agrees :
    insertComment.AgreeFor insertDefinition insertCommentRevised ∧
    member {} ⟨insertDefinition, some insertComment, none⟩ =
      member {} ⟨insertDefinition, some insertCommentRevised, none⟩ ∧
    (∀ topic, insertCommentRevised.about insertDefinition topic =
      insertCommentBrief.about insertDefinition topic) ∧
    member {} ⟨insertDefinition, some insertCommentRevised, none⟩ =
      member {} ⟨insertDefinition, some insertCommentBrief, none⟩ ∧
    (member {} ⟨insertDefinition, some insertCommentBrief, none⟩).value.overloads.length = 1 ∧
    ∀ first second,
      (insertCommentAsserted first second).AgreeFor insertDefinition (insertCommentListed first second) ∧
      member {} ⟨insertDefinition, some (insertCommentAsserted first second), none⟩ =
        member {} ⟨insertDefinition, some (insertCommentListed first second), none⟩ ∧
      (member {} ⟨insertDefinition, some (insertCommentListed first second), none⟩).value.overloads =
        [⟨first, []⟩, ⟨second, []⟩] := by
  have hnames : insertDefinition.parameterNames = ["list", "items", "block"] := rfl
  have hreturn {c : CommentBlock} (h : CommentBlock.returnType (some c) = some (.base .void)) :
      CommentBlock.FirstReturn (some c) (some (.base .void)) :=
    (CommentBlock.returnType_eq_iff _ _).mp h
  have hagree : insertComment.AgreeFor insertDefinition insertCommentRevised := by
    refine ⟨rfl, ⟨_, hreturn rfl, hreturn rfl⟩, ?_, rfl, rfl⟩
    rw [hnames, List.forall_mem_cons, List.forall_mem_cons, List.forall_mem_singleton]
    exact ⟨rfl, rfl, rfl⟩
  have hasserted (first second : MethodType) : (insertCommentAsserted first second).AgreeFor
      insertDefinition (insertCommentListed first second) := by
    refine ⟨rfl, ⟨_, hreturn rfl, hreturn rfl⟩, ?_, rfl, rfl⟩
    rw [hnames, List.forall_mem_cons, List.forall_mem_cons, List.forall_mem_singleton]
    exact ⟨rfl, rfl, rfl⟩
  have habout : ∀ topic, insertCommentRevised.about insertDefinition topic =
      insertCommentBrief.about insertDefinition topic := by
    intro topic
    cases topic with
    | var name =>
      simp [CommentBlock.about, insertCommentRevised, insertCommentBrief, List.filter_cons,
        Note.concerns, Note.topic, hnames]
    | assertion | returns | application | passthrough => rfl
  obtain ⟨h₁, h₂, h₃⟩ := member_determined_by_notes {} insertDefinition none
  exact ⟨hagree, h₁ _ _ hagree, habout, h₂ _ _ rfl habout, (h₃ _).2.1 rfl,
    fun first second => ⟨hasserted first second, h₁ _ _ (hasserted first second),
      (h₃ _).1 (List.cons_ne_nil first [second])⟩⟩

end MethodDeclaration

end RubySig

import RubySig.Rbs.Render

/-!
# Members of RBS classes

The records that declarations are turned into: method definitions with their overloads, aliases,
mixins and attributes, each with the documentation text found next to the declaration.
-/

namespace RubySig.Rbs

/-- Whether a method is defined on instances or on the singleton. -/
inductive MethodKind where
  | onInstance
  | onSingleton
  deriving DecidableEq

/-- The word for a method kind. -/
def MethodKind.text : MethodKind → String
  | .onInstance => "instance"
  | .onSingleton => "singleton"

/-- Every method kind. -/
def MethodKind.all : List MethodKind :=
  [.onInstance, .onSingleton]

/-- Visibility of a method or attribute. -/
inductive Visibility where
  | pub
  | priv
  deriving DecidableEq

/-- The word for a visibility. -/
def Visibility.text : Visibility → String
  | .pub => "public"
  | .priv => "private"

/-- Every visibility. -/
def Visibility.all : List Visibility :=
  [.pub, .priv]

/-- The visibility that a word stands for. -/
def Visibility.ofText? (word : String) : Option Visibility :=
  Visibility.all.find? fun visibility => visibility.text == word

/-- The ways to mix a module into a class. -/
inductive MixinKind where
  | inclusion
  | extension
  | prepending
  deriving DecidableEq

/-- The word for a mixin. -/
def MixinKind.text : MixinKind → String
  | .inclusion => "include"
  | .extension => "extend"
  | .prepending => "prepend"

/-- Every way to mix in. -/
def MixinKind.all : List MixinKind :=
  [.inclusion, .extension, .prepending]

/-- The mixin that a word stands for. -/
def MixinKind.ofText? (word : String) : Option MixinKind :=
  MixinKind.all.find? fun kind => kind.text == word

/-- The methods that an attribute declares. -/
inductive AttributeKind where
  | reader
  | writer
  | accessor
  deriving DecidableEq

/-- The word for an attribute. -/
def AttributeKind.text : AttributeKind → String
  | .reader => "attr_reader"
  | .writer => "attr_writer"
  | .accessor => "attr_accessor"

/-- Every kind of attribute. -/
def AttributeKind.all : List AttributeKind :=
  [.reader, .writer, .accessor]

/-- The attribute that a word stands for. -/
def AttributeKind.ofText? (word : String) : Option AttributeKind :=
  AttributeKind.all.find? fun kind => kind.text == word

/-- A fragment that is passed on as it is. -/
structure AnnotationText where
  string : String
  deriving DecidableEq

/-- The fragment in braces after `%a`. -/
def AnnotationText.render (a : AnnotationText) : String :=
  "%a\x7b" ++ a.string ++ "\x7d"

/-- One signature of a method. -/
structure Overload where
  methodType : MethodType
  annotations : List AnnotationText := []
  deriving BEq

/-- A method with its signatures. -/
structure MethodDefinition where
  name : String
  kind : MethodKind
  overloads : List Overload
  annotations : List AnnotationText
  comment : Option String
  visibility : Option Visibility
  deriving BEq

/-- A second name for a method. -/
structure Alias where
  newName : String
  oldName : String
  kind : MethodKind := .onInstance
  comment : Option String
  deriving DecidableEq

/-- A module mixed into a class. -/
structure Mixin where
  kind : MixinKind
  name : QualifiedName
  args : List Ty
  comment : Option String
  deriving BEq

/-- The word for the mixin, the module and its type arguments. -/
def Mixin.render (m : Mixin) : String :=
  m.kind.text ++ " " ++ m.name.render ++ bracketed (m.args.map Ty.render)

/-- An attribute. Without an instance variable of its own it is kept in the one with its name. -/
structure Attribute where
  kind : AttributeKind
  name : String
  type : Ty
  ivarName : Option String := none
  methodKind : MethodKind := .onInstance
  annotations : List AnnotationText := []
  comment : Option String
  visibility : Option Visibility := none
  deriving BEq

/-- The word for the attribute, its name and its type. -/
def Attribute.render (a : Attribute) : String :=
  a.kind.text ++ " " ++ a.name ++ ": " ++ a.type.render

end RubySig.Rbs

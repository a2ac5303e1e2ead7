import RubySig.Rbs.Member
import RubySig.Text.Quoted

/-!
# Log events

What the library reports besides its results: one event per construct that it passes over or
takes for something else. Events are data and travel with the result that they belong to; the
words of an event are made only when it is shown.
-/

namespace RubySig

open RubySig.Rbs

/-- How serious an event is. -/
inductive Level where
  | debug
  | info
  | warning
  | error
  | critical
  deriving DecidableEq

/-- The word for a level. -/
def Level.text : Level → String
  | .debug => "DEBUG"
  | .info => "INFO"
  | .warning => "WARNING"
  | .error => "ERROR"
  | .critical => "CRITICAL"

/-- Every level, the least serious first. -/
def Level.all : List Level :=
  [.debug, .info, .warning, .error, .critical]

/-- The place of a level in the order of seriousness. -/
def Level.rank : Level → Nat
  | .debug => 10
  | .info => 20
  | .warning => 30
  | .error => 40
  | .critical => 50

/-- The level that a word stands for. -/
def Level.ofText? (word : String) : Option Level :=
  Level.all.find? fun level => level.text == word

/-- The part of the library that reports an event. -/
inductive Channel where
  | signature
  | method
  | mixin
  | reading
  | outline
  | environmentFile
  deriving DecidableEq

/-- The name under which a channel reports. -/
def Channel.text : Channel → String
  | .signature => "rbs_inline.declarations.signature"
  | .method => "rbs_inline.declarations.method"
  | .mixin => "rbs_inline.declarations.mixin"
  | .reading => "rbs_inline.adapters.ruby.builder"
  | .outline => "rbs_inline.adapters.ruby.scanner"
  | .environmentFile => "dotenv.main"

/-- Something worth reporting. -/
inductive Event where
  | destructuredSkipped (source : String)
  | postsIgnored (count : Nat)
  | blockNotProc (name : String)
  | foreignReceiver (line : Int) (name : String)
  | mixinArguments (line : Int) (kind : MixinKind)
  | unknownParameter (type : String)
  | statementSkipped (type : String) (line : Int)
  | singletonStatementSkipped (type : String) (line : Int)
  | globalAliasSkipped (line : Int)
  | visibilityCallUnsupported (name : String) (line : Int)
  | singletonCallSkipped (name : String) (line : Int)
  | foreignSingletonSkipped (line : Int)
  | unreadableStatement (line : Nat)
  deriving DecidableEq

namespace Event

/-- Which part reports an event. -/
def channel : Event → Channel
  | destructuredSkipped _ | postsIgnored _ | blockNotProc _ => .signature
  | foreignReceiver _ _ => .method
  | mixinArguments _ _ => .mixin
  | unknownParameter _ => .reading
  | unreadableStatement _ => .environmentFile
  | _ => .outline

/-- A receiver that is not `self` and a statement that cannot be read are warnings, everything else
is for debugging. -/
def level : Event → Level
  | foreignReceiver _ _ | unreadableStatement _ => .warning
  | _ => .debug

/-- The words of an event. -/
def message : Event → String
  | destructuredSkipped source => "Skipping destructured parameter " ++ Text.Quoted.render source
  | postsIgnored count => "Ignoring " ++ toString count ++ " parameter(s) after the rest parameter"
  | blockNotProc name => "Block parameter &" ++ name ++ " is not annotated with a proc type"
  | foreignReceiver line name =>
    "Line " ++ toString line ++ ": receiver of `def " ++ name
      ++ "` is not `self`, treating it as an instance method"
  | mixinArguments line kind =>
    "Line " ++ toString line ++ ": unsupported `" ++ kind.text ++ "` arguments"
  | unknownParameter type => "Unknown parameter node: " ++ type
  | statementSkipped type line => "Skipping " ++ type ++ " at line " ++ toString line
  | singletonStatementSkipped type line =>
    "Skipping " ++ type ++ " in `class << self` at line " ++ toString line
  | globalAliasSkipped line => "Skipping global variable alias at line " ++ toString line
  | visibilityCallUnsupported name line =>
    "Unsupported `" ++ name ++ "` call at line " ++ toString line
  | singletonCallSkipped name line =>
    "Skipping `" ++ name ++ "` in `class << self` at line " ++ toString line
  | foreignSingletonSkipped line => "Skipping `class << obj` at line " ++ toString line
  | unreadableStatement line =>
    "python-dotenv could not parse statement starting at line " ++ toString line

/-- Level, channel and words of an event in one line. -/
def render (event : Event) : String :=
  event.level.text ++ " " ++ event.channel.text ++ ": " ++ event.message

end Event

/-- A result with the events reported on the way to it, in order. -/
structure Logged (α : Type) where
  value : α
  log : List Event := []

namespace Logged

variable {α β : Type}

instance : Monad Logged where
  pure value := ⟨value, []⟩
  bind x f := ⟨(f x.value).value, x.log ++ (f x.value).log⟩

/-- Report one event. -/
def tell (event : Event) : Logged Unit :=
  ⟨(), [event]⟩

/-- Report an event if a condition holds. -/
def tellIf (condition : Bool) (event : Event) : Logged Unit :=
  ⟨(), if condition then [event] else []⟩

/-- A value that is returned is the value of the run. -/
@[simp]
theorem value_pure (value : α) : (pure value : Logged α).value = value := rfl

/-- Returning a value reports nothing. -/
@[simp]
theorem log_pure (value : α) : (pure value : Logged α).log = [] := rfl

/-- The value of two runs in a row is that of the second. -/
@[simp]
theorem value_bind (x : Logged α) (f : α → Logged β) : (x >>= f).value = (f x.value).value := rfl

/-- What two runs in a row report is put together in order. -/
@[simp]
theorem log_bind (x : Logged α) (f : α → Logged β) :
    (x >>= f).log = x.log ++ (f x.value).log := rfl

/-- A function of the value is applied to it. -/
@[simp]
theorem value_map (f : α → β) (x : Logged α) : (f <$> x).value = f x.value := rfl

/-- A function of the value does not change what is reported. -/
@[simp]
theorem log_map (f : α → β) (x : Logged α) : (f <$> x).log = x.log := by
  simp [Functor.map]

instance : LawfulMonad Logged :=
  LawfulMonad.mk' Logged (fun x => by cases x; simp [Functor.map])
    (fun _ _ => by simp [bind, pure]) (fun _ _ _ => by simp [bind, List.append_assoc])

end Logged

end RubySig

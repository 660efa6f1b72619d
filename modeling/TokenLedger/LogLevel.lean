/-!
Severities of log events.
-/

set_option autoImplicit false

namespace TokenLedger

inductive LogLevel where
  | error
  | warn
  | info
  | debug
  | trace
  deriving DecidableEq, Repr

namespace LogLevel

instance : Inhabited LogLevel := ⟨.info⟩

def all : List LogLevel := [.error, .warn, .info, .debug, .trace]

def name : LogLevel → String
  | .error => "error"
  | .warn => "warn"
  | .info => "info"
  | .debug => "debug"
  | .trace => "trace"

instance : ToString LogLevel := ⟨name⟩

/-- The level of that name. -/
def ofName? (text : String) : Option LogLevel := all.find? fun level => level.name = text

/-- The level that a word in lower case means: its name, or `warning` in full. -/
def ofWord? (word : String) : Option LogLevel :=
  if word = "warning" then some .warn else ofName? word

/-- The level that a setting means, in any case of its letters. Only letters of ASCII are put in
lower case, since no other is part of a word or becomes part of one. -/
def parse? (text : String) : Option LogLevel := ofWord? text.toLower

@[simp] theorem ofName?_name (level : LogLevel) : ofName? level.name = some level := by
  cases level <;> decide

end LogLevel

end TokenLedger

import TokenLedger.Amount
import TokenLedger.Identifier
import TokenLedger.LogLevel
import TokenLedger.Text.Decimal

/-!
Settings of a ledger.
-/

set_option autoImplicit false

namespace TokenLedger

structure Config where
  /-- The creator recorded in every new account. -/
  systemAccount : Name
  /-- What every new account starts with. -/
  initialBalance : Amount
  /-- The level at which rejected actions are logged. -/
  rejectionLevel : LogLevel
  deriving DecidableEq, Repr

/-- What is wrong with a configuration. -/
inductive ConfigError where
  | emptySystemAccount
  | negativeInitialBalance (balance : Amount)
  | stated (message : String)
  deriving DecidableEq, Repr

def ConfigError.message : ConfigError → String
  | .emptySystemAccount => "System account name cannot be empty"
  | .negativeInitialBalance balance => s!"Initial balance cannot be negative, got {balance}"
  | .stated message => message

/-- The settings found in the environment, as texts. -/
structure Environment where
  systemAccount : Option String
  initialBalance : Option String
  rejectionLevel : Option String
  deriving DecidableEq, Repr

namespace Config

def standard : Config := ⟨⟨"evt"⟩, ⟨10000, by decide, by decide⟩, .warn⟩

instance : Inhabited Config := ⟨standard⟩

/-- The standard settings, except those that the environment sets to something readable. -/
def ofEnvironment (env : Environment) : Config where
  systemAccount := (env.systemAccount.map Name.mk).getD standard.systemAccount
  initialBalance :=
    (env.initialBalance.bind fun text =>
      (Text.Decimal.integer? text.toList).bind Amount.ofInt?).getD standard.initialBalance
  rejectionLevel := (env.rejectionLevel.bind LogLevel.parse?).getD standard.rejectionLevel

/-- New accounts need a named creator and must not start in debt. -/
def check (config : Config) : Except ConfigError Unit :=
  if config.systemAccount.isEmpty then .error .emptySystemAccount
  else if config.initialBalance.val < 0 then
    .error (.negativeInitialBalance config.initialBalance)
  else .ok ()

end Config

end TokenLedger

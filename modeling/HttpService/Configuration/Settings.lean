import HttpService.Configuration.Fault
import HttpService.Text.Blank
import HttpService.Text.Digits

/-!
# Settings

The settings of a client as an environment gives them: the base URL, how long a request may take,
and the name under which the client introduces itself.  A setting that is absent has a default;
there is none for the base URL.
-/

namespace HttpService

structure Settings where
  baseUrl : Option String
  timeoutSeconds : UInt64
  userAgent : String
  deriving DecidableEq, Repr

namespace Settings

def baseUrlVariable : String := "RESTWIRE_BASE_URL"

def timeoutVariable : String := "RESTWIRE_TIMEOUT_SECS"

/-- The variable of the name under which a client introduces itself. -/
def userAgentVariable : String := "RESTWIRE_USER_AGENT"

def default : Settings :=
  ⟨none, 30, "restwire/0.1.0"⟩

/-- A number of seconds: digits, possibly after a plus sign and between blanks, that make a
positive number of 64 bits. -/
def seconds? (text : String) : Option UInt64 :=
  let cs := Text.trim text.toList
  let digits := if cs.head? = some '+' then cs.drop 1 else cs
  if digits.isEmpty || !digits.all Char.isDigit then none
  else
    let n := Text.natOfDigits digits
    if 0 < n ∧ n < UInt64.size then some (UInt64.ofNat n) else none

def timeout (given : Option String) : Except ConfigurationFault UInt64 :=
  match given with
  | none => .ok default.timeoutSeconds
  | some text =>
    match seconds? text with
    | some n => .ok n
    | none => .error (.invalidSetting timeoutVariable "a positive number of seconds" text)

/-- The settings of an environment.  An empty base URL counts as none. -/
def ofVariables (lookup : String → Option String) : Except ConfigurationFault Settings := do
  let seconds ← timeout (lookup timeoutVariable)
  let baseUrl := (lookup baseUrlVariable).filter fun s => !s.isEmpty
  return ⟨baseUrl, seconds, (lookup userAgentVariable).getD default.userAgent⟩

def requireBaseUrl (s : Settings) : Except ConfigurationFault String :=
  match s.baseUrl with
  | some url => .ok url
  | none => .error (.missingSetting baseUrlVariable)

/-- Refuses a name that cannot stand in a header line. -/
def checkUserAgent (s : Settings) : Except ConfigurationFault Unit :=
  if s.userAgent.toList.all fun c => c = '\t' || (0x20 ≤ c.toNat && c.toNat ≠ 0x7F) then .ok ()
  else .error (.unusableClient "builder error")

end Settings

end HttpService

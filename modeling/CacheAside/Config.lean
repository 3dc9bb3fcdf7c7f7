import CacheAside.Text.Blank

/-!
# Configuration

The configuration is read from named variables, one after another; the first bad one ends the
reading.  A variable that is not set leaves its field as it is.
-/

namespace CacheAside

/-- How a read that missed the cache fills it. -/
inductive CacheRefresh where
  /-- The answer does not wait for the cache. -/
  | background
  /-- The answer waits for the cache. -/
  | inlined
  deriving DecidableEq, Repr

structure Config where
  /-- Seconds that a cache entry lives. -/
  cacheTtl : Nat := 300
  cacheRefresh : CacheRefresh := .background
  /-- Milliseconds for a call whose context has no deadline. -/
  defaultTimeout : Option Nat := none
  /-- Milliseconds for a background refresh. -/
  refreshTimeout : Nat := 5000
  deriving DecidableEq, Repr

/-- Why a number is refused. -/
inductive NumberFault where
  | empty
  | tooLarge
  | invalidDigit
  deriving DecidableEq, Repr

/-- Why the text of a variable is refused. -/
inductive ConfigFault where
  | number (fault : NumberFault)
  | noTtl
  | noTimeout
  | unknownRefresh (got : String)
  deriving DecidableEq, Repr

def NumberFault.message : NumberFault → String
  | .empty => "cannot parse integer from empty string"
  | .tooLarge => "number too large to fit in target type"
  | .invalidDigit => "invalid digit found in string"

def ConfigFault.message : ConfigFault → String
  | .number fault => fault.message
  | .noTtl => "TTL must be at least 1 second"
  | .noTimeout => "timeout must be at least 1 ms"
  | .unknownRefresh got => s!"expected `background` or `inline`, got `{got}`"

/-- The variables in the order in which they are read. -/
inductive Variable where
  | cacheTtl
  | cacheRefresh
  | defaultTimeout
  | refreshTimeout
  deriving DecidableEq, Repr

def Variable.name : Variable → String
  | .cacheTtl => "TRELLIS_CACHE_TTL_SECS"
  | .cacheRefresh => "TRELLIS_CACHE_REFRESH"
  | .defaultTimeout => "TRELLIS_DEFAULT_TIMEOUT_MS"
  | .refreshTimeout => "TRELLIS_REFRESH_TIMEOUT_MS"

/-- A variable with a bad text. -/
structure ConfigError where
  var : Variable
  fault : ConfigFault
  deriving DecidableEq, Repr

def ConfigError.message (e : ConfigError) : String :=
  s!"Invalid value for environment variable {e.var.name}: {e.fault.message}"

namespace Config

open Text

/-- Reads digits from left to right; the first one that is wrong or too much is reported. -/
def readDigits : (value : Nat) → List Char → Except NumberFault Nat
  | value, [] => .ok value
  | value, c :: cs =>
    if c.isDigit then
      let value := 10 * value + (c.toNat - '0'.toNat)
      if value < Nat.pow 2 64 then readDigits value cs else .error .tooLarge
    else .error .invalidDigit

/-- A number below 2^64, with an optional plus sign. -/
def readNumber (cs : List Char) : Except NumberFault Nat :=
  match cs with
  | [] => .error .empty
  | ['+'] => .error .invalidDigit
  | '+' :: digits => readDigits 0 digits
  | digits => readDigits 0 digits

/-- A refresh mode, in any case of ASCII letters and between blanks. -/
def readRefresh (raw : String) : Except ConfigFault CacheRefresh :=
  let got := String.ofList ((trim raw.toList).map Char.toLower)
  if got = "background" then .ok .background
  else if got = "inline" then .ok .inlined
  else .error (.unknownRefresh got)

/-- The number in the text of a variable. -/
def numberOf (raw : String) : Except ConfigFault Nat :=
  (readNumber (trim raw.toList)).mapError .number

/-- Puts the text of a variable into its field. -/
def set (config : Config) (raw : String) : Variable → Except ConfigFault Config
  | .cacheTtl => do
    let n ← numberOf raw
    if n = 0 then throw .noTtl else return { config with cacheTtl := n }
  | .cacheRefresh => do
    return { config with cacheRefresh := ← readRefresh raw }
  | .defaultTimeout => do
    let n ← numberOf raw
    return { config with defaultTimeout := if n = 0 then none else some n }
  | .refreshTimeout => do
    let n ← numberOf raw
    if n = 0 then throw .noTimeout else return { config with refreshTimeout := n }

/-- The order in which the variables are read. -/
def order : List Variable :=
  [.cacheTtl, .cacheRefresh, .defaultTimeout, .refreshTimeout]

/-- Reads the given variables into a configuration: the variables that were asked for, and the
result. -/
def readAll (lookup : Variable → Option String) :
    (config : Config) → List Variable → List Variable × Except ConfigError Config
  | config, [] => ([], .ok config)
  | config, var :: vars =>
    match lookup var with
    | none =>
      let (asked, result) := readAll lookup config vars
      (var :: asked, result)
    | some raw =>
      match config.set raw var with
      | .error fault => ([var], .error ⟨var, fault⟩)
      | .ok config =>
        let (asked, result) := readAll lookup config vars
        (var :: asked, result)

/-- Reads the configuration: the variables that were asked for, and the result. -/
def read (lookup : String → Option String) : List Variable × Except ConfigError Config :=
  readAll (fun var => lookup var.name) {} order

end Config

end CacheAside

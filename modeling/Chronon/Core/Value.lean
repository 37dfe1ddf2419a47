import Mathlib.Data.Rat.Defs

/-!
# Timestamps, JSON values and text

`DateTime<Utc>` is a number of nanoseconds since the Unix epoch. `chrono` panics
where a sum leaves its calendar, and `Duration` where a number of seconds does
not fit: `addDuration` says so for the time of a retry, whose delay a policy may
set to years. The other sums (lease ends, due times, waits) are plain sums here:
results about them are about clocks and TTLs that leave room for them.

`serde_json::Value` keeps its three number representations apart, because
decoding an unsigned field accepts only the first; a finite `f64` is a rational.
-/

namespace Chronon
set_option autoImplicit false

/-- `chrono::DateTime<Utc>`: nanoseconds since the Unix epoch. -/
abbrev DateTime := Int

/-- `chrono::Duration::seconds`. -/
def seconds (n : Int) : Int := n * 1000000000

/-- `chrono::Duration::milliseconds`. -/
def milliseconds (n : Int) : Int := n * 1000000

/-- `Duration::num_seconds`, truncated towards zero. -/
def numSeconds (d : Int) : Int := d.tdiv 1000000000

/-- `Duration::num_milliseconds`, truncated towards zero. -/
def numMilliseconds (d : Int) : Int := d.tdiv 1000000

/-- `DateTime::<Utc>::MIN_UTC`, the first instant of the year -262143. -/
def dateTimeMin : DateTime := seconds (-8334601228800)

/-- `DateTime::<Utc>::MAX_UTC`, the last nanosecond of the year 262142. -/
def dateTimeMax : DateTime := seconds 8210266876800 - 1

/-- A time `DateTime<Utc>` can hold. -/
def InRange (time : DateTime) : Prop := dateTimeMin ≤ time ∧ time ≤ dateTimeMax

instance (time : DateTime) : Decidable (InRange time) := inferInstanceAs (Decidable (_ ∧ _))

/-- `DateTime + Duration`; `none` is the panic when the sum is out of range. -/
def addDuration (time : DateTime) (duration : Int) : Option DateTime :=
  if InRange (time + duration) then some (time + duration) else none

theorem addDuration_eq_some {time sum : DateTime} {duration : Int} (isSum : addDuration time duration = some sum) :
    sum = time + duration := by
  unfold addDuration at isSum
  split at isSum
  · exact (Option.some.inj isSum).symm
  · cases isSum

theorem addDuration_ne_none {time : DateTime} {duration : Int} :
    addDuration time duration ≠ none ↔ InRange (time + duration) := by
  unfold addDuration
  split <;> simp_all

/-- The value of an integer stored in an `i32`, wrapping around. -/
def wrapI32 (n : Int) : Int := (n + 2147483648) % 4294967296 - 2147483648

/-- `n as i64` for a `u64`. -/
def asI64 (n : Nat) : Int := ((n : Int) + 9223372036854775808) % 18446744073709551616 - 9223372036854775808

/-- `serde_json::Value`. -/
inductive Json where
  | null
  | bool (b : Bool)
  | posInt (n : Nat)
  | negInt (n : Int)
  | float (q : ℚ)
  | str (s : String)
  | arr (items : List Json)
  | obj (fields : List (String × Json))

namespace Json

/-- `Value::get` with a string key. -/
def get (key : String) : Json → Option Json
  | .obj fields => fields.lookup key
  | _ => none

/-- `Value::is_null`. -/
def isNull : Json → Bool
  | .null => true
  | _ => false

def asBool : Json → Option Bool
  | .bool b => some b
  | _ => none

/-- Decoding an unsigned integer of at most `max`: only a non-negative JSON integer will do. -/
def asUnsigned (max : Nat) : Json → Option Nat
  | .posInt n => if n ≤ max then some n else none
  | _ => none

/-- Decoding an `f64`. -/
def asF64 : Json → Option ℚ
  | .posInt n => some n
  | .negInt n => some n
  | .float q => some q
  | _ => none

/-- The values of a struct's fields, all of them required: from an object by
name (unknown keys are ignored), or from an array of exactly that many items. -/
def structFields (names : List String) : Json → Option (List Json)
  | .obj fields => names.mapM fun name => fields.lookup name
  | .arr items => if items.length = names.length then some items else none
  | _ => none

end Json

/-- `char::is_whitespace`, the Unicode `White_Space` property. -/
def isWhitespace (c : Char) : Bool :=
  let n := c.toNat
  (9 ≤ n && n ≤ 13) || n == 0x20 || n == 0x85 || n == 0xA0 || n == 0x1680 || (0x2000 ≤ n && n ≤ 0x200A) ||
    n == 0x2028 || n == 0x2029 || n == 0x202F || n == 0x205F || n == 0x3000

/-- `str::trim`. -/
def trim (s : String) : String :=
  String.ofList ((s.toList.dropWhile isWhitespace).reverse.dropWhile isWhitespace).reverse

/-- A piece of UTF-8 text. Rust indexes it by bytes. -/
abbrev Text := List Char

namespace Text

/-- `str::len`: the number of UTF-8 bytes. -/
def len : Text → Nat
  | [] => 0
  | c :: cs => c.utf8Size + len cs

/-- `&s[n..]`; `none` is the panic at an index that is out of range or inside a character. -/
def dropBytes : Nat → Text → Option Text
  | 0, s => some s
  | _ + 1, [] => none
  | n + 1, c :: cs => if c.utf8Size ≤ n + 1 then dropBytes (n + 1 - c.utf8Size) cs else none
termination_by structural _ s => s

/-- `&s[..n]`. -/
def takeBytes : Nat → Text → Option Text
  | 0, _ => some []
  | _ + 1, [] => none
  | n + 1, c :: cs =>
    if c.utf8Size ≤ n + 1 then (takeBytes (n + 1 - c.utf8Size) cs).map (c :: ·) else none
termination_by structural _ s => s

/-- `&s[a..b]`. -/
def slice (s : Text) (a b : Nat) : Option Text :=
  if a ≤ b then (dropBytes a s).bind (takeBytes (b - a)) else none

/-- `str::find` with a string pattern: the byte index of the first match. -/
def findStr (pat : Text) : Text → Option Nat
  | [] => if pat.isEmpty then some 0 else none
  | c :: cs => if pat.isPrefixOf (c :: cs) then some 0 else (findStr pat cs).map (· + c.utf8Size)

/-- `str::find` with a predicate. -/
def findChar (p : Char → Bool) : Text → Option Nat
  | [] => none
  | c :: cs => if p c then some 0 else (findChar p cs).map (· + c.utf8Size)

/-- `str::rfind` with a predicate: the byte index of the last match. -/
def rfindChar (p : Char → Bool) : Text → Option Nat
  | [] => none
  | c :: cs =>
    match rfindChar p cs with
    | some i => some (i + c.utf8Size)
    | none => if p c then some 0 else none

end Text

end Chronon

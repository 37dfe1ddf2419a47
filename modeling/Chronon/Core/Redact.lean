import Chronon.Core.Value

/-!
# `chronon-core/src/redact.rs` and `sanitize.rs`

What happens to an error text before it is stored. Both functions slice by byte
index, so they can panic: `none` is a panic. The `while` loop of
`redact_credentials_in_text` gets one unit of fuel for each byte and one more.
-/

namespace Chronon
set_option autoImplicit false

open Text

def schemeSeparator : Text := "://".toList

/-- `redact_single_endpoint`. -/
def redactSingleEndpoint (endpoint : Text) : Option Text :=
  match findStr schemeSeparator endpoint with
  | none => some endpoint
  | some schemeEnd => do
    let authorityStart := schemeEnd + 3
    let authority ← dropBytes authorityStart endpoint
    match findChar (· == '@') authority with
    | none => some endpoint
    | some at' =>
      let userinfoEnd := authorityStart + at'
      let hostStart := userinfoEnd + 1
      let userinfo ← slice endpoint authorityStart userinfoEnd
      if userinfo.any (fun c => c == '/' || c == '?' || c == '#') then
        some endpoint
      else
        return (← takeBytes authorityStart endpoint) ++ "***@".toList ++ (← dropBytes hostStart endpoint)

/-- `redact_endpoint`: the comma-separated segments, each redacted. -/
def redactEndpoint (endpoint : Text) : Option Text := do
  let parts ← (endpoint.splitOn ',').mapM redactSingleEndpoint
  return List.intercalate [','] parts

/-- `consume_endpoint_prefix`. -/
def consumeEndpointPrefix (s : Text) : Option Nat :=
  match findStr schemeSeparator s with
  | none => some (len s)
  | some schemeEnd => do
    let afterScheme := schemeEnd + 3
    let rest ← dropBytes afterScheme s
    let stop (c : Char) := isWhitespace c || c == '"' || c == '\'' || c == ')' || c == ']'
    return afterScheme + (findChar stop rest).getD (len rest)

/-- One pass of the `while` loop per unit of fuel, from index `i` with `out` written. -/
def redactLoop (text : Text) : Nat → Nat → Text → Option Text
  | 0, _, _ => none
  | fuel + 1, i, out =>
    if i < len text then do
      let rest ← dropBytes i text
      match findStr schemeSeparator rest with
      | some rel =>
        let abs := i + rel
        let before ← takeBytes abs text
        let scheme (c : Char) := c.isAlphanum || c == '+' || c == '.' || c == '-'
        let schemeStart := match rfindChar (fun c => !scheme c) before with
          | some j => j + 1
          | none => i
        let plain ← slice text i schemeStart
        let consumed ← consumeEndpointPrefix (← dropBytes schemeStart text)
        let endpoint ← slice text schemeStart (schemeStart + consumed)
        redactLoop text fuel (schemeStart + consumed) (out ++ plain ++ (← redactEndpoint endpoint))
      | none => some (out ++ rest)
    else some out

/-- `redact_credentials_in_text`. -/
def redactCredentialsInText (text : String) : Option String :=
  (redactLoop text.toList (len text.toList + 1) 0 []).map String.ofList

def maxErrorMessageChars : Nat := 512

def secretNeedles : List String :=
  ["password=", "Password=", "secret=", "Secret=", "token=", "Token=", "Bearer ", "authorization:"]

/-- One replacement step of `sanitize_error_message`. -/
def sanitizeNeedle (out needle : Text) : Option Text :=
  match findStr needle out with
  | none => some out
  | some idx => do
    let stop := min (idx + len needle + 8) (len out)
    return (← takeBytes idx out) ++ needle ++ "[redacted]".toList ++ (← dropBytes stop out)

/-- `sanitize_error_message`. -/
def sanitizeErrorMessage (raw : String) : Option String := do
  let out ← secretNeedles.foldlM (fun out needle => sanitizeNeedle out needle.toList)
    (raw.toList.filter (· != '\x00'))
  if maxErrorMessageChars < out.length then
    return String.ofList (out.take maxErrorMessageChars ++ ['…'])
  else
    return String.ofList out

/-- The text that is stored for an error. -/
def safeMessage (error : String) : Option String := do sanitizeErrorMessage (← redactCredentialsInText error)

end Chronon

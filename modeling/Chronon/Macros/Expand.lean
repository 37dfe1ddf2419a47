import Chronon.Core.Job
import Chronon.Executor.Registry
import Chronon.Macros.Derive
import Chronon.Macros.Syntax
import Chronon.Text.JsonText

/-!
# `chronon-macros/src/script_expand.rs` and `script.rs`

What `#[chronon::script]` generates, by the parts that matter when it runs: the
struct of the parameters with its two derives, the handle, the names, and the closure
of the descriptor, which deserializes the struct and calls the function with its
fields. Visibilities, attributes and the body of the function are passed on as
they are. `rustc` and the crates a macro is written with are parameters.

A raw identifier is written with `r#`, which `serde` takes off for the name of a field.
-/

namespace Chronon.Macros
set_option autoImplicit false

open Collections

/-- `rustc`, `syn`, `quote` and the standard library, as far as the macro asks them. -/
structure Compiler where
  syn : SynErrors
  uppercase : Char → Text
  isIdent : String → Bool
  notIdent : String → String
  quote : SynType → String
  hash : String → Nat

/-- `syn::Ident::new`, which panics at what is not an identifier. -/
def Compiler.identNew (c : Compiler) (name : String) : Except String String :=
  if c.isIdent name then .ok name else .error (c.notIdent name)

/-- Types that are one identifier, and ASCII identifiers. -/
def Compiler.simple : Compiler where
  syn := ⟨fun what => "expected " ++ what⟩
  uppercase c := [c.toUpper]
  isIdent name :=
    match name.toList with
    | [] => false
    | first :: rest => (first.isAlpha || first == '_') && rest.all fun c => c.isAlphanum || c == '_'
  notIdent name := "\"" ++ name ++ "\" is not a valid Ident"
  quote ty :=
    match ty with
    | .path _ [.mk ident .none] => ident
    | .other tokens => tokens
    | _ => ""
  hash _ := 0

/-- `to_pascal_case`. -/
def toPascalCase (c : Compiler) (s : String) : String :=
  String.ofList ((s.toList.splitOn '_').flatMap fun
    | [] => []
    | first :: chars => c.uppercase first ++ chars)

/-- `build_signature_metadata`. -/
def buildSignatureMetadata (c : Compiler) (params : List (Pat × SynType)) : Except String (String × Nat) := do
  let signature ← params.foldlM (fun (signature : OrderedMap String String) param =>
    match param.1 with
    | .ident name => .ok (signature.insert name (c.quote param.2))
    | .other _ => .error "#[chronon::script] parameters after ScriptContext must be simple identifiers") .empty
  let signatureJson := String.ofList (JsonText.object (signature.entries.map fun e => (e.1.toList, e.2.toList)))
  .ok (signatureJson, c.hash signatureJson)

/-- `param_accessors`: the fields of `params` that are passed on. -/
def paramAccessors (params : List (Pat × SynType)) : Except String (List String) :=
  params.mapM fun param =>
    match param.1 with
    | .ident name => .ok name
    | .other _ => .error "#[chronon::script] parameters after ScriptContext must be simple identifiers"

/-- What is generated. -/
structure Expansion where
  scriptName : String
  fnName : String
  paramsStructName : String
  scriptTypeName : String
  internalFnName : String
  params : List (Pat × SynType)
  accessors : List String
  signatureJson : String
  signatureHash : Nat

/-- `expand_script`. -/
def expandScript (c : Compiler) (scriptName : String) (sig : Signature) : Except String Expansion := do
  let params ← collectScriptParams sig
  let (signatureJson, signatureHash) ← buildSignatureMetadata c params
  let fnNamePascal := toPascalCase c sig.ident
  let paramsStructName ← c.identNew (fnNamePascal ++ "Params")
  let scriptTypeName ← c.identNew
    (if "Script".toList.isSuffixOf fnNamePascal.toList then fnNamePascal else fnNamePascal ++ "Script")
  let internalFnName ← c.identNew ("__" ++ sig.ident ++ "_impl")
  let accessors ← paramAccessors params
  .ok ⟨scriptName, sig.ident, paramsStructName, scriptTypeName, internalFnName, params, accessors, signatureJson,
    signatureHash⟩

/-- `script_impl_impl`. -/
def scriptImpl (c : Compiler) (attr : List AttrToken) (sig : Signature) : Except String Expansion := do
  let scriptName ← ScriptAttrs.parse c.syn attr
  validateSignature sig
  expandScript c scriptName sig

/-! ## What the generated code does -/

/-- The name of a field, without `r#`. -/
def unraw (ident : String) : String :=
  match ident.toList with
  | 'r' :: '#' :: name => String.ofList name
  | _ => ident

namespace Expansion

variable {Ctx : Type} (e : Expansion) (serde : Serde SynType)

def isUnitStruct : Bool := e.params.isEmpty

/-- The fields of the struct of the parameters. -/
def fields : List (String × SynType) :=
  e.params.filterMap fun param =>
    match param.1 with
    | .ident name => some (unraw name, param.2)
    | .other _ => none

/-- What a unit struct is deserialized from: `null` in place of an empty object. -/
def unitJson : Json → Json
  | .obj [] => .null
  | paramsJson => paramsJson

/-- `generate_deserialization_code` and the arguments of `generate_invoke_script`: what the function is called with, or
the error that `?` returns. -/
def arguments (paramsJson : Json) : Result (List serde.Value) :=
  if e.isUnitStruct then
    match serde.deserializeUnit e.paramsStructName (unitJson paramsJson) with
    | .error text => .error (.paramError text)
    | .ok () => .ok []
  else
    match serde.deserializeStruct e.paramsStructName e.fields paramsJson with
    | .error text => .error (.paramError text)
    | .ok params => .ok (e.accessors.filterMap fun ident => params.lookup (unraw ident))

/-- The closure of the descriptor, given the function. -/
def invoke (impl : Ctx → List serde.Value → Result Unit) (ctx : Ctx) (paramsJson : Json) : Result Unit := do
  let args ← e.arguments serde paramsJson
  impl ctx args

/-- The submitted descriptor. -/
def descriptor (impl : Ctx → List serde.Value → Result Unit) : ScriptDescriptor Ctx :=
  .withSignature e.scriptName (e.invoke serde impl) e.signatureJson e.signatureHash

/-- A value of the struct of the parameters: the values of its fields, in their order. -/
abbrev Params : Type := { args : List serde.Value // args.map Sigma.fst = e.fields.map Prod.snd }

/-- `serde_json::to_value` of the struct. -/
def toValue {e : Expansion} {serde : Serde SynType} (params : e.Params serde) : Except String Json :=
  if e.isUnitStruct then .ok .null else serde.serializeStruct ((e.fields.map Prod.fst).zip params.1)

end Expansion

/-! ## `chronon-core/src/handle.rs` -/

/-- `ScriptHandle`. -/
structure ScriptHandle where
  name : String

namespace ScriptHandle

/-- `ScriptHandle::job`. -/
def job (handle : ScriptHandle) (jobId : String) (now : DateTime) (jobName : String) : Job :=
  .new jobId now jobName handle.name

/-- `ScriptHandle::job_with_params`, given how the parameters are serialized. -/
def jobWithParams (handle : ScriptHandle) (jobId : String) (now : DateTime) (jobName : String) (params : Except String Json) :
    Result Job :=
  match params with
  | .error text => .error (.paramError text)
  | .ok paramsJson => .ok { handle.job jobId now jobName with paramsJson }

end ScriptHandle

/-- The generated function in place of the annotated one; `handle` of the script's type is the same. -/
def Expansion.handle (e : Expansion) : ScriptHandle := ⟨e.scriptName⟩

end Chronon.Macros

import Chronon.Core.Error

/-!
# `chronon-macros/src/script_attrs.rs` and `script_validate.rs`

What `#[chronon::script(name = "...")]` accepts: the parser of its arguments, and
the checks on the signature of the annotated function. Of `syn`'s types, the forms
the checks look into are kept apart, and everything else is a text of tokens. The
errors are the texts of the compile errors, without the spans they point at; those
of `syn`'s own parser are left open.
-/

namespace Chronon.Macros
set_option autoImplicit false

/-! ## `script_attrs.rs` -/

/-- The tokens of the arguments. -/
inductive AttrToken where
  | ident (name : String)
  | equals
  | literal (value : String)
  | comma
  | other (text : String)

/-- What `syn` says when it expects another token. -/
structure SynErrors where
  expected : String → String

/-- The loop of `ScriptAttrs::parse`, with the name read so far. -/
def parseAttrs (syn : SynErrors) (name : Option String) : List AttrToken → Except String (Option String)
  | [] => .ok name
  | .ident key :: rest =>
    if key = "name" then
      match rest with
      | .equals :: .literal value :: rest =>
        if name.isSome then .error "duplicate `name` in #[chronon::script]"
        else
          match rest with
          | [] => .ok (some value)
          | .comma :: rest => parseAttrs syn (some value) rest
          | _ => .error (syn.expected "`,`")
      | .equals :: _ => .error (syn.expected "string literal")
      | _ => .error (syn.expected "`=`")
    else .error "expected `name = \"...\"` in #[chronon::script]"
  | _ => .error (syn.expected "identifier")

/-- `ScriptAttrs::parse`. -/
def ScriptAttrs.parse (syn : SynErrors) (tokens : List AttrToken) : Except String String := do
  match ← parseAttrs syn none tokens with
  | some name => .ok name
  | none => .error "missing `name = \"...\"` for #[chronon::script]"

/-! ## Signatures -/

mutual

/-- `syn::Type`. -/
inductive SynType where
  | path (qself : Bool) (segments : List PathSegment)
  | traitObject (bounds : List TypeParamBound)
  | tuple (elems : List SynType)
  | other (tokens : String)

inductive PathSegment where
  | mk (ident : String) (arguments : PathArguments)

inductive PathArguments where
  | none
  | angleBracketed (args : List GenericArgument)
  | parenthesized (tokens : String)

inductive GenericArgument where
  | type (ty : SynType)
  | other (tokens : String)

inductive TypeParamBound where
  | trait (segments : List PathSegment)
  | other (tokens : String)

end

def PathSegment.ident : PathSegment → String
  | .mk ident _ => ident

def PathSegment.arguments : PathSegment → PathArguments
  | .mk _ arguments => arguments

/-- `syn::Pat`. -/
inductive Pat where
  | ident (name : String)
  | other (tokens : String)

/-- `syn::FnArg`. -/
inductive FnArg where
  | receiver
  | typed (pat : Pat) (ty : SynType)

/-- `syn::Signature`. -/
structure Signature where
  asyncness : Bool
  ident : String
  inputs : List FnArg
  output : Option SynType

/-! ## `script_validate.rs` -/

/-- `trait_object_has_script_context`. -/
def traitObjectHasScriptContext (bounds : List TypeParamBound) : Bool :=
  bounds.any fun
    | .trait segments => segments.getLast?.any (·.ident = "ScriptContext")
    | .other _ => false

/-- `is_box_dyn_script_context`. -/
def isBoxDynScriptContext (segments : List PathSegment) : Bool :=
  match segments.getLast? with
  | some segment =>
    if segment.ident ≠ "Box" then false
    else
      match segment.arguments with
      | .angleBracketed (.type (.traitObject bounds) :: _) => traitObjectHasScriptContext bounds
      | _ => false
  | none => false

/-- `is_script_context_param`. -/
def isScriptContextParam : SynType → Bool
  | .path _ segments => isBoxDynScriptContext segments
  | .traitObject bounds => traitObjectHasScriptContext bounds
  | _ => false

/-- `is_result_unit`. -/
def isResultUnit : SynType → Bool
  | .path false segments =>
    match segments.getLast? with
    | some segment =>
      if segment.ident ≠ "Result" then false
      else
        match segment.arguments with
        | .angleBracketed [.type (.tuple [])] => true
        | _ => false
    | none => false
  | _ => false

/-- `validate_first_parameter`. -/
def validateFirstParameter (sig : Signature) : Except String Unit :=
  match sig.inputs with
  | [] => .error "#[chronon::script] function must accept Box<dyn ScriptContext> as the first parameter"
  | .receiver :: _ => .error "#[chronon::script] methods are not supported; use a free function"
  | .typed (.other _) _ :: _ => .error "#[chronon::script] first parameter must be a named ScriptContext binding"
  | .typed (.ident _) ty :: _ =>
    if isScriptContextParam ty then .ok ()
    else .error "#[chronon::script] first parameter must be Box<dyn ScriptContext>"

/-- `validate_return_type`. -/
def validateReturnType (sig : Signature) : Except String Unit :=
  if sig.output.any isResultUnit then .ok ()
  else .error "#[chronon::script] return type must be Result<()> (for example chronon_core::Result<()>)"

/-- `validate_signature`. -/
def validateSignature (sig : Signature) : Except String Unit :=
  if sig.asyncness then do
    validateFirstParameter sig
    validateReturnType sig
  else .error "#[chronon::script] function must be async"

/-- `collect_script_params`. -/
def collectScriptParams (sig : Signature) : Except String (List (Pat × SynType)) :=
  (sig.inputs.drop 1).mapM fun
    | .typed pat ty => .ok (pat, ty)
    | .receiver => .error "#[chronon::script] methods are not supported; use a free function"

end Chronon.Macros

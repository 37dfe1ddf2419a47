import Chronon.Macros.Expand

/-!
# The functions that `#[chronon::script]` accepts

The macro takes the name of the script once, and an `async` function of a
context and of named parameters that returns `Result<()>`; everything else is a
compile error. What it generates for such a function depends on its name and its
parameters, and the metadata of its signature is the same for two functions
exactly when they have the same parameters, in whichever order.
-/

namespace Chronon.Macros
set_option autoImplicit false

open Collections

variable {c : Compiler} {syn : SynErrors} {sig : Signature} {ε α β : Type}

/-! ## What is accepted -/

/-- A bound on the trait `ScriptContext`, under any path. -/
def NamesContext (bounds : List TypeParamBound) : Prop :=
  ∃ front arguments, TypeParamBound.trait (front ++ [.mk "ScriptContext" arguments]) ∈ bounds

/-- `Box<dyn ScriptContext>` under any path, or the trait object itself. -/
inductive ContextType : SynType → Prop
  | boxed {qself : Bool} {front : List PathSegment} {bounds : List TypeParamBound} {more : List GenericArgument} :
      NamesContext bounds →
      ContextType (.path qself (front ++ [.mk "Box" (.angleBracketed (.type (.traitObject bounds) :: more))]))
  | bare {bounds : List TypeParamBound} : NamesContext bounds → ContextType (.traitObject bounds)

/-- `Result<()>` under any path. -/
inductive UnitResult : SynType → Prop
  | result {front : List PathSegment} :
      UnitResult (.path false (front ++ [.mk "Result" (.angleBracketed [.type (.tuple [])])]))

/-- `name = "..."`, with or without a comma behind it. -/
inductive NamedOnce (name : String) : List AttrToken → Prop
  | plain : NamedOnce name [.ident "name", .equals, .literal name]
  | comma : NamedOnce name [.ident "name", .equals, .literal name, .comma]

/-- The parameters of a signature that is accepted, after the context. -/
structure Shape (sig : Signature) (params : List (String × SynType)) : Prop where
  isAsync : sig.asyncness = true
  inputs : ∃ ctx ty, ContextType ty ∧ sig.inputs = .typed (.ident ctx) ty :: params.map fun p => .typed (.ident p.1) p.2
  output : ∃ ty, UnitResult ty ∧ sig.output = some ty

/-- The signature metadata of these parameters. -/
def signatureText (c : Compiler) (params : List (String × SynType)) : String :=
  String.ofList (JsonText.object
    ((OrderedMap.ofList (params.map fun p => (p.1, c.quote p.2))).entries.map fun e => (e.1.toList, e.2.toList)))

/-- What is generated for a function of these parameters. -/
def expansionOf (c : Compiler) (scriptName : String) (sig : Signature) (params : List (String × SynType)) : Expansion where
  scriptName
  fnName := sig.ident
  paramsStructName := toPascalCase c sig.ident ++ "Params"
  scriptTypeName :=
    if "Script".toList.isSuffixOf (toPascalCase c sig.ident).toList then toPascalCase c sig.ident
    else toPascalCase c sig.ident ++ "Script"
  internalFnName := "__" ++ sig.ident ++ "_impl"
  params := params.map fun p => (.ident p.1, p.2)
  accessors := params.map Prod.fst
  signatureJson := signatureText c params
  signatureHash := c.hash (signatureText c params)

/-- The generated names are identifiers. -/
def Expansion.NamesFit (c : Compiler) (e : Expansion) : Prop :=
  ∀ ident ∈ [e.paramsStructName, e.scriptTypeName, e.internalFnName], c.isIdent ident = true

/-! ## The checks -/

theorem traitObjectHasScriptContext_iff {bounds : List TypeParamBound} :
    traitObjectHasScriptContext bounds = true ↔ NamesContext bounds := by
  rw [traitObjectHasScriptContext, List.any_eq_true]
  constructor
  · rintro ⟨bound, inside, isContext⟩
    cases bound with
    | other tokens => exact absurd isContext Bool.false_ne_true
    | trait segments =>
      obtain ⟨⟨ident, arguments⟩, isLast, isName⟩ := (Option.any_eq_true _ _).mp isContext
      obtain ⟨front, rfl⟩ := List.getLast?_eq_some_iff.mp isLast
      rw [decide_eq_true_eq] at isName
      obtain rfl : ident = "ScriptContext" := isName
      exact ⟨front, arguments, inside⟩
  · rintro ⟨front, arguments, inside⟩
    exact ⟨_, inside, (Option.any_eq_true _ _).mpr ⟨_, List.getLast?_concat, rfl⟩⟩

theorem isBoxDynScriptContext_iff {segments : List PathSegment} :
    isBoxDynScriptContext segments = true ↔ ∃ front bounds more,
      NamesContext bounds ∧ segments = front ++ [.mk "Box" (.angleBracketed (.type (.traitObject bounds) :: more))] := by
  unfold isBoxDynScriptContext
  constructor
  · intro accepts
    split at accepts
    · rename_i segment isLast
      obtain ⟨front, rfl⟩ := List.getLast?_eq_some_iff.mp isLast
      obtain ⟨ident, arguments⟩ := segment
      split at accepts
      · exact absurd accepts Bool.false_ne_true
      · rename_i isName
        obtain rfl : ident = "Box" := not_not.mp isName
        split at accepts
        · rename_i bounds more isArguments
          obtain rfl : arguments = .angleBracketed (.type (.traitObject bounds) :: more) := isArguments
          exact ⟨front, bounds, more, traitObjectHasScriptContext_iff.mp accepts, rfl⟩
        · exact absurd accepts Bool.false_ne_true
    · exact absurd accepts Bool.false_ne_true
  · rintro ⟨front, bounds, more, names, rfl⟩
    rw [List.getLast?_concat]
    exact traitObjectHasScriptContext_iff.mpr names

theorem isScriptContextParam_iff {ty : SynType} : isScriptContextParam ty = true ↔ ContextType ty := by
  cases ty with
  | path qself segments =>
    rw [isScriptContextParam, isBoxDynScriptContext_iff]
    constructor
    · rintro ⟨front, bounds, more, names, rfl⟩
      exact .boxed names
    · intro isContext
      cases isContext with
      | boxed names => exact ⟨_, _, _, names, rfl⟩
  | traitObject bounds =>
    rw [isScriptContextParam, traitObjectHasScriptContext_iff]
    exact ⟨.bare, fun isContext => by cases isContext; assumption⟩
  | tuple elems => exact ⟨nofun, nofun⟩
  | other tokens => exact ⟨nofun, nofun⟩

theorem isResultUnit_iff {ty : SynType} : isResultUnit ty = true ↔ UnitResult ty := by
  constructor
  · intro accepts
    unfold isResultUnit at accepts
    split at accepts
    · split at accepts
      · rename_i segment isLast
        obtain ⟨front, rfl⟩ := List.getLast?_eq_some_iff.mp isLast
        obtain ⟨ident, arguments⟩ := segment
        split at accepts
        · exact absurd accepts Bool.false_ne_true
        · rename_i isName
          obtain rfl : ident = "Result" := not_not.mp isName
          split at accepts
          · rename_i isArguments
            obtain rfl : arguments = .angleBracketed [.type (.tuple [])] := isArguments
            exact .result
          · exact absurd accepts Bool.false_ne_true
      · exact absurd accepts Bool.false_ne_true
    · exact absurd accepts Bool.false_ne_true
  · rintro ⟨⟩
    rw [isResultUnit, List.getLast?_concat]
    rfl

theorem validateFirstParameter_iff :
    validateFirstParameter sig = .ok () ↔ ∃ ctx ty rest, ContextType ty ∧ sig.inputs = .typed (.ident ctx) ty :: rest := by
  constructor
  · intro accepts
    unfold validateFirstParameter at accepts
    split at accepts
    · cases accepts
    · cases accepts
    · cases accepts
    · rename_i ctx ty rest isInputs
      split at accepts
      · rename_i isContext
        exact ⟨ctx, ty, rest, isScriptContextParam_iff.mp isContext, isInputs⟩
      · cases accepts
  · rintro ⟨ctx, ty, rest, isContext, isInputs⟩
    rw [validateFirstParameter, isInputs]
    exact if_pos (isScriptContextParam_iff.mpr isContext)

theorem validateReturnType_iff : validateReturnType sig = .ok () ↔ ∃ ty, UnitResult ty ∧ sig.output = some ty := by
  unfold validateReturnType
  split
  · rename_i accepts
    obtain ⟨ty, isOutput, isUnit⟩ := (Option.any_eq_true _ _).mp accepts
    exact iff_of_true rfl ⟨ty, isResultUnit_iff.mp isUnit, isOutput⟩
  · rename_i rejects
    refine iff_of_false nofun ?_
    rintro ⟨ty, isUnit, isOutput⟩
    exact rejects ((Option.any_eq_true _ _).mpr ⟨ty, isOutput, isResultUnit_iff.mpr isUnit⟩)

theorem validateSignature_iff : validateSignature sig = .ok () ↔
    sig.asyncness = true ∧ validateFirstParameter sig = .ok () ∧ validateReturnType sig = .ok () := by
  unfold validateSignature
  split
  · rename_i isAsync
    rw [Serde.bind_ok]
    exact ⟨fun ⟨_, first, output⟩ => ⟨isAsync, first, output⟩, fun ⟨_, first, output⟩ => ⟨(), first, output⟩⟩
  · rename_i notAsync
    exact iff_of_false nofun fun accepts => notAsync accepts.1

/-! ## The arguments of the attribute -/

/-- With a name that has been read, nothing may follow. -/
theorem parseAttrs_some {name : String} {tokens : List AttrToken} {parsed : Option String} :
    parseAttrs syn (some name) tokens = .ok parsed ↔ tokens = [] ∧ parsed = some name := by
  constructor
  · intro parses
    unfold parseAttrs at parses
    split at parses
    · cases parses
      exact ⟨rfl, rfl⟩
    · split at parses
      · split at parses
        · simp only [Option.isSome_some, if_true] at parses
          cases parses
        · cases parses
        · cases parses
      · cases parses
    · cases parses
  · rintro ⟨rfl, rfl⟩
    rfl

theorem parse_iff {tokens : List AttrToken} {name : String} :
    ScriptAttrs.parse syn tokens = .ok name ↔ NamedOnce name tokens := by
  constructor
  · intro parses
    obtain ⟨parsed, isParsed, isName⟩ := Serde.bind_ok.mp parses
    cases parsed with
    | none => cases isName
    | some parsed =>
      obtain rfl : parsed = name := Except.ok.inj isName
      unfold parseAttrs at isParsed
      split at isParsed
      · cases isParsed
      · split at isParsed
        · rename_i isKey
          subst isKey
          split at isParsed
          · rw [if_neg (by exact Bool.false_ne_true)] at isParsed
            split at isParsed
            · cases isParsed
              exact .plain
            · obtain ⟨rfl, same⟩ := parseAttrs_some.mp isParsed
              cases same
              exact .comma
            · cases isParsed
          · cases isParsed
          · cases isParsed
        · cases isParsed
      · cases isParsed
  · rintro ⟨⟩ <;> rfl

/-! ## The parameters -/

theorem mapM_ok {f : α → Except ε β} {items : List α} {results : List β} :
    items.mapM f = .ok results ↔ List.Forall₂ (fun item result => f item = .ok result) items results := by
  induction items generalizing results with
  | nil =>
    rw [List.mapM_nil, List.forall₂_nil_left_iff]
    exact ⟨fun same => (Except.ok.inj same).symm, fun same => by rw [same]; rfl⟩
  | cons item items ih =>
    rw [List.mapM_cons, Serde.bind_ok, List.forall₂_cons_left_iff]
    constructor
    · rintro ⟨result, isResult, rest⟩
      obtain ⟨results', isRest, same⟩ := Serde.bind_ok.mp rest
      cases same
      exact ⟨result, results', isResult, ih.mp isRest, rfl⟩
    · rintro ⟨result, results', isResult, rest, rfl⟩
      exact ⟨result, isResult, Serde.bind_ok.mpr ⟨results', ih.mpr rest, rfl⟩⟩

theorem collectScriptParams_ok {params : List (Pat × SynType)} :
    collectScriptParams sig = .ok params ↔ sig.inputs.drop 1 = params.map fun p => .typed p.1 p.2 := by
  rw [collectScriptParams, mapM_ok]
  generalize sig.inputs.drop 1 = inputs
  constructor
  · intro collected
    induction collected with
    | nil => rfl
    | @cons arg param _ _ isParam _ ih =>
      cases arg with
      | receiver => cases isParam
      | typed pat ty =>
        cases isParam
        rw [List.map_cons, ih]
  · rintro rfl
    rw [List.forall₂_map_left_iff]
    exact List.forall₂_same.mpr fun _ _ => rfl

/-- Parameters that are plain names, and the names are passed on. -/
theorem paramAccessors_ok {params : List (Pat × SynType)} {accessors : List String} :
    paramAccessors params = .ok accessors ↔
      ∃ named : List (String × SynType), params = named.map (fun p => (.ident p.1, p.2)) ∧ accessors = named.map Prod.fst := by
  rw [paramAccessors, mapM_ok]
  constructor
  · intro reads
    induction reads with
    | nil => exact ⟨[], rfl, rfl⟩
    | @cons param accessor _ _ isAccessor _ ih =>
      obtain ⟨named, rfl, rfl⟩ := ih
      obtain ⟨pat, ty⟩ := param
      cases pat with
      | other tokens => cases isAccessor
      | ident name =>
        cases isAccessor
        exact ⟨(_, ty) :: named, rfl, rfl⟩
  · rintro ⟨named, rfl, rfl⟩
    rw [List.forall₂_map_left_iff, List.forall₂_map_right_iff]
    exact List.forall₂_same.mpr fun _ _ => rfl

theorem buildSignatureMetadata_named (named : List (String × SynType)) :
    buildSignatureMetadata c (named.map fun p => (.ident p.1, p.2)) = .ok (signatureText c named, c.hash (signatureText c named)) := by
  have folds {f : OrderedMap String String → Pat × SynType → Except String (OrderedMap String String)}
      (inserts : ∀ signature name ty, f signature (.ident name, ty) = .ok (signature.insert name (c.quote ty)))
      (signature : OrderedMap String String) : (named.map fun p => (Pat.ident p.1, p.2)).foldlM f signature =
        .ok ((named.map fun p => (p.1, c.quote p.2)).foldl (fun m e => m.insert e.1 e.2) signature) := by
    induction named generalizing signature with
    | nil => rfl
    | cons first named ih =>
      rw [List.map_cons, List.foldlM_cons, inserts]
      exact ih _
  exact Serde.bind_ok.mpr ⟨_, folds (fun _ _ _ => rfl) .empty, rfl⟩

theorem identNew_ok {name ident : String} : c.identNew name = .ok ident ↔ ident = name ∧ c.isIdent name = true := by
  rw [Compiler.identNew]
  split
  · rename_i fits
    exact ⟨fun same => ⟨(Except.ok.inj same).symm, fits⟩, fun ⟨same, _⟩ => by rw [same]⟩
  · rename_i misfit
    exact iff_of_false nofun fun accepts => misfit accepts.2

theorem expandScript_ok {scriptName : String} {e : Expansion} : expandScript c scriptName sig = .ok e ↔
    ∃ params : List (String × SynType), sig.inputs.drop 1 = params.map (fun p => .typed (.ident p.1) p.2) ∧
      e.NamesFit c ∧ e = expansionOf c scriptName sig params := by
  constructor
  · intro expands
    obtain ⟨params, isParams, expands⟩ := Serde.bind_ok.mp expands
    obtain ⟨⟨signatureJson, signatureHash⟩, isSignature, expands⟩ := Serde.bind_ok.mp expands
    obtain ⟨paramsStructName, isStruct, expands⟩ := Serde.bind_ok.mp expands
    obtain ⟨scriptTypeName, isType, expands⟩ := Serde.bind_ok.mp expands
    obtain ⟨internalFnName, isInternal, expands⟩ := Serde.bind_ok.mp expands
    obtain ⟨accessors, isAccessors, expands⟩ := Serde.bind_ok.mp expands
    obtain ⟨named, rfl, rfl⟩ := paramAccessors_ok.mp isAccessors
    rw [buildSignatureMetadata_named] at isSignature
    cases isSignature
    obtain ⟨rfl, structFits⟩ := identNew_ok.mp isStruct
    obtain ⟨rfl, typeFits⟩ := identNew_ok.mp isType
    obtain ⟨rfl, internalFits⟩ := identNew_ok.mp isInternal
    cases expands
    refine ⟨named, (collectScriptParams_ok.mp isParams).trans ?_, ?_, rfl⟩
    · rw [List.map_map]
      rfl
    · simp only [Expansion.NamesFit, List.forall_mem_cons, List.not_mem_nil, false_implies, implies_true, and_true]
      exact ⟨structFits, typeFits, internalFits⟩
  · rintro ⟨named, isInputs, fits, rfl⟩
    have isParams : collectScriptParams sig = .ok (named.map fun p => (.ident p.1, p.2)) := by
      rw [collectScriptParams_ok, isInputs, List.map_map]
      rfl
    simp only [Expansion.NamesFit, expansionOf, List.forall_mem_cons, List.not_mem_nil, false_implies, implies_true,
      and_true] at fits
    obtain ⟨structFits, typeFits, internalFits⟩ := fits
    exact Serde.bind_ok.mpr ⟨_, isParams, Serde.bind_ok.mpr ⟨_, buildSignatureMetadata_named named,
      Serde.bind_ok.mpr ⟨_, identNew_ok.mpr ⟨rfl, structFits⟩, Serde.bind_ok.mpr ⟨_, identNew_ok.mpr ⟨rfl, typeFits⟩,
        Serde.bind_ok.mpr ⟨_, identNew_ok.mpr ⟨rfl, internalFits⟩,
          Serde.bind_ok.mpr ⟨_, paramAccessors_ok.mpr ⟨named, rfl, rfl⟩, rfl⟩⟩⟩⟩⟩⟩

/-! ## Main results -/

/-- **The macro accepts** a name that is given once, on an `async` function of a context and of named parameters that
returns `Result<()>`, when the names it derives are identifiers, **and nothing else**. -/
theorem script_accepted_iff (c : Compiler) (attr : List AttrToken) (sig : Signature) (e : Expansion) :
    scriptImpl c attr sig = .ok e ↔
      ∃ scriptName params, NamedOnce scriptName attr ∧ Shape sig params ∧ e.NamesFit c ∧
        e = expansionOf c scriptName sig params := by
  rw [scriptImpl, Serde.bind_ok]
  constructor
  · rintro ⟨scriptName, parses, rest⟩
    obtain ⟨_, isValid, expands⟩ := Serde.bind_ok.mp rest
    obtain ⟨isAsync, first, output⟩ := validateSignature_iff.mp isValid
    obtain ⟨ctx, ty, others, isContext, isInputs⟩ := validateFirstParameter_iff.mp first
    obtain ⟨params, dropped, fits, isExpansion⟩ := expandScript_ok.mp expands
    rw [isInputs] at dropped
    exact ⟨scriptName, params, parse_iff.mp parses,
      ⟨isAsync, ⟨ctx, ty, isContext, by rw [isInputs, ← dropped]; rfl⟩, validateReturnType_iff.mp output⟩, fits, isExpansion⟩
  · rintro ⟨scriptName, params, isNamed, ⟨isAsync, ⟨ctx, ty, isContext, isInputs⟩, output⟩, fits, isExpansion⟩
    refine ⟨scriptName, parse_iff.mpr isNamed, Serde.bind_ok.mpr ⟨(), ?_, ?_⟩⟩
    · exact validateSignature_iff.mpr ⟨isAsync, validateFirstParameter_iff.mpr ⟨ctx, ty, _, isContext, isInputs⟩,
        validateReturnType_iff.mpr output⟩
    · exact expandScript_ok.mpr ⟨params, by rw [isInputs]; rfl, fits, isExpansion⟩

/-- Strings and their characters. -/
theorem toList_pairs_injective : Function.Injective fun e : String × String => (e.1.toList, e.2.toList) := by
  intro a b same
  rw [Prod.mk.injEq, String.toList_inj, String.toList_inj] at same
  exact Prod.ext same.1 same.2

/-- The text for two lists of parameters is the same when one is the other in some order. -/
theorem signatureText_eq_iff (c : Compiler) {params params' : List (String × SynType)} (names : (params.map Prod.fst).Nodup)
    (names' : (params'.map Prod.fst).Nodup) :
    signatureText c params = signatureText c params' ↔
      (params.map fun p => (p.1, c.quote p.2)).Perm (params'.map fun p => (p.1, c.quote p.2)) := by
  have keys (params : List (String × SynType)) :
      (params.map fun p => (p.1, c.quote p.2)).map Prod.fst = params.map Prod.fst := by
    rw [List.map_map]
    rfl
  rw [← OrderedMap.ofList_eq_iff (by rwa [keys]) (by rwa [keys]), signatureText, signatureText, String.ofList_inj,
    JsonText.prefixFree_object.injective.eq_iff, (List.map_injective_iff.mpr toList_pairs_injective).eq_iff]
  constructor
  · exact fun same => OrderedMap.ext_mem fun e => by rw [same]
  · exact fun same => by rw [same]

/-- The parameters as they are written, by their names. -/
def Expansion.written (c : Compiler) (e : Expansion) : List (String × String) :=
  e.params.filterMap fun param =>
    match param.1 with
    | .ident name => some (name, c.quote param.2)
    | .other _ => none

theorem written_expansionOf (scriptName : String) (params : List (String × SynType)) :
    (expansionOf c scriptName sig params).written c = params.map fun p => (p.1, c.quote p.2) := by
  rw [Expansion.written, expansionOf, List.filterMap_map]
  exact List.filterMap_eq_map.symm ▸ rfl

/-- **Signature metadata tells exactly the parameters**: two functions that are accepted, whose parameters have different
names, get the same metadata when the one has the parameters of the other in some order. A name or a type that is
written otherwise shows in it, the name of the function and of the script do not. -/
theorem signature_tells_parameters {attr attr' : List AttrToken} {sig' : Signature} {e e' : Expansion}
    (accepted : scriptImpl c attr sig = .ok e) (accepted' : scriptImpl c attr' sig' = .ok e')
    (names : ((e.written c).map Prod.fst).Nodup) (names' : ((e'.written c).map Prod.fst).Nodup) :
    (e.signatureJson, e.signatureHash) = (e'.signatureJson, e'.signatureHash) ↔ (e.written c).Perm (e'.written c) := by
  obtain ⟨scriptName, params, -, -, -, rfl⟩ := (script_accepted_iff c attr sig e).mp accepted
  obtain ⟨scriptName', params', -, -, -, rfl⟩ := (script_accepted_iff c attr' sig' e').mp accepted'
  have keys (params : List (String × SynType)) :
      (params.map fun p => (p.1, c.quote p.2)).map Prod.fst = params.map Prod.fst := by
    rw [List.map_map]
    rfl
  rw [written_expansionOf, keys] at names names'
  rw [written_expansionOf, written_expansionOf, ← signatureText_eq_iff c names names', Prod.mk.injEq]
  exact ⟨And.left, fun same => ⟨same, congrArg c.hash same⟩⟩

/-- A type of one identifier. -/
def plainType (ident : String) : SynType := .path false [.mk ident .none]

/-- `async fn ident(ctx: Box<dyn ScriptContext>, params) -> Result<()>`. -/
def scriptFn (ident : String) (params : List (String × SynType)) : Signature where
  asyncness := true
  ident
  inputs :=
    .typed (.ident "ctx") (.path false [.mk "Box" (.angleBracketed [.type (.traitObject
      [.trait [.mk "ScriptContext" .none]])])]) :: params.map fun p => .typed (.ident p.1) p.2
  output := some (.path false [.mk "Result" (.angleBracketed [.type (.tuple [])])])

theorem scriptFn_shape (ident : String) (params : List (String × SynType)) : Shape (scriptFn ident params) params where
  isAsync := rfl
  inputs := ⟨"ctx", _, @ContextType.boxed _ [] _ _ ⟨[], .none, List.mem_singleton_self _⟩, rfl⟩
  output := ⟨_, @UnitResult.result [], rfl⟩

/-- The expansion of such a function, when its names fit. -/
theorem scriptFn_accepted (c : Compiler) (scriptName ident : String) (params : List (String × SynType))
    (fits : (expansionOf c scriptName (scriptFn ident params) params).NamesFit c) :
    scriptImpl c [.ident "name", .equals, .literal scriptName] (scriptFn ident params) =
      .ok (expansionOf c scriptName (scriptFn ident params) params) :=
  (script_accepted_iff c _ _ _).mpr ⟨scriptName, params, .plain, scriptFn_shape ident params, fits, rfl⟩

/-- Two functions of two parameters, in the two orders. -/
theorem signature_tells_parameters_swapped :
    ∃ e e', scriptImpl .simple [.ident "name", .equals, .literal "cleanup"]
        (scriptFn "cleanup" [("retention_days", plainType "u32"), ("dry_run", plainType "bool")]) = .ok e ∧
      scriptImpl .simple [.ident "name", .equals, .literal "purge"]
        (scriptFn "purge" [("dry_run", plainType "bool"), ("retention_days", plainType "u32")]) = .ok e' ∧
      (e.signatureJson, e.signatureHash) = (e'.signatureJson, e'.signatureHash) := by
  have accepted := scriptFn_accepted .simple "cleanup" "cleanup"
    [("retention_days", plainType "u32"), ("dry_run", plainType "bool")] (by unfold Expansion.NamesFit; decide +kernel)
  have accepted' := scriptFn_accepted .simple "purge" "purge"
    [("dry_run", plainType "bool"), ("retention_days", plainType "u32")] (by unfold Expansion.NamesFit; decide +kernel)
  refine ⟨_, _, accepted, accepted', ?_⟩
  refine (signature_tells_parameters accepted accepted' ?_ ?_).mpr ?_
  · rw [written_expansionOf]
    decide +kernel
  · rw [written_expansionOf]
    decide +kernel
  · rw [written_expansionOf, written_expansionOf]
    exact .swap _ _ _

end Chronon.Macros

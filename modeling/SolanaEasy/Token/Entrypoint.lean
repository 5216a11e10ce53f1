import SolanaEasy.Token.Input
import SolanaEasy.Token.Run
import SolanaEasy.Token.UiAmount

/-!
# Entrypoint — the program on bytes

`process_instruction` of the program: the handlers that answer through the return data, the
handler that an input selects, and the steps that inputs make.
-/

namespace SolanaEasy.Token

/-- What the handlers call that is not spelled out: the conversions in floating point, of mints
that show their amounts with interest or with a multiplier, and `TokenMetadata::get_slice`. -/
structure Conversions where
  interestToUi : InterestBearingConfig → UInt64 → UInt8 → Int64 → Option String
  interestFromUi : InterestBearingConfig → String → UInt8 → Int64 → Result UInt64
  multiplierToUi : ScaledUiAmountConfig → UInt64 → UInt8 → Int64 → Option String
  multiplierFromUi : ScaledUiAmountConfig → String → UInt8 → Int64 → Result UInt64
  getSlice : Bytes → Option UInt64 → Option UInt64 → Option Bytes

/-- Conversions that always fail, where no mint asks for any. -/
def Conversions.none : Conversions where
  interestToUi _ _ _ _ := Option.none
  interestFromUi _ _ _ _ := .error .invalidArgument
  multiplierToUi _ _ _ _ := Option.none
  multiplierFromUi _ _ _ _ := .error .invalidArgument
  getSlice _ _ _ := Option.none

namespace Processor

/-- `process_amount_to_ui_amount`: the bytes of the text. -/
def processAmountToUiAmount (K : Conversions) (ctx : Context) (accounts : List AccountInfo)
    (amount : UInt64) (σ : Ledger) : Result Bytes :=
  match accounts with
  | mintInfo :: _ => do
    checkProgramAccount (σ mintInfo.key).owner
    let mint ← mapErr (.token .invalidMint) (load σ PodMint mintInfo.key)
    let decimals := mint.base.decimals
    let uiAmount ←
      match toOption (mint.getExtension InterestBearingConfig) with
      | some e => okOr .invalidArgument (K.interestToUi e amount decimals ctx.unixTimestamp)
      | none =>
        match toOption (mint.getExtension ScaledUiAmountConfig) with
        | some e => okOr .invalidArgument (K.multiplierToUi e amount decimals ctx.unixTimestamp)
        | none => .ok (amountToUiAmountStringTrimmed amount decimals)
    return strBytes uiAmount
  | [] => .error .notEnoughAccountKeys

/-- `process_ui_amount_to_amount`: the bytes of the amount. -/
def processUiAmountToAmount (K : Conversions) (ctx : Context) (accounts : List AccountInfo)
    (uiAmount : String) (σ : Ledger) : Result Bytes :=
  match accounts with
  | mintInfo :: _ => do
    checkProgramAccount (σ mintInfo.key).owner
    let mint ← mapErr (.token .invalidMint) (load σ PodMint mintInfo.key)
    let decimals := mint.base.decimals
    let amount ←
      match toOption (mint.getExtension InterestBearingConfig) with
      | some e => K.interestFromUi e uiAmount decimals ctx.unixTimestamp
      | none =>
        match toOption (mint.getExtension ScaledUiAmountConfig) with
        | some e => K.multiplierFromUi e uiAmount decimals ctx.unixTimestamp
        | none => tryUiAmountIntoAmount uiAmount decimals
    return Pod.toBytes amount
  | [] => .error .notEnoughAccountKeys

/-- `process_emit`: a slice of the stored metadata, where there is one. -/
def TokenMetadata.processEmit (K : Conversions) (accounts : List AccountInfo)
    (start last : Option UInt64) (σ : Ledger) : Result (Option Bytes) :=
  match accounts with
  | metadataInfo :: _ => do
    failIf ((σ metadataInfo.key).owner != Keys.tokenProgram) .illegalOwner
    let state ← load σ PodMint metadataInfo.key
    let metadataBytes ← getExtensionBytes PodMint .tokenMetadata state.tlvData
    return K.getSlice metadataBytes start last
  | [] => .error .notEnoughAccountKeys

end Processor

open Processor

/-! ## Requests, carried out -/

/-- The return data that the handler sets. -/
def Request.answer (K : Conversions) (ctx : Context) (accounts : List AccountInfo) (σ : Ledger) :
    Request → Result (Option Bytes)
  | .instruction (.getAccountDataSize types) => do
    let accountLen ← processGetAccountDataSize accounts types σ
    return some (Pod.toBytes (UInt64.ofNat accountLen))
  | .amountToUiAmount amount => do
    let uiAmount ← processAmountToUiAmount K ctx accounts amount σ
    return some uiAmount
  | .uiAmountToAmount uiAmount => do
    let amount ← processUiAmountToAmount K ctx accounts uiAmount σ
    return some amount
  | .emit start last => TokenMetadata.processEmit K accounts start last σ
  | _ => .ok none

/-- The ledger that the handler leaves. -/
def Request.process (K : Conversions) (rt : Runtime) (ctx : Context) (accounts : List AccountInfo)
    (σ : Ledger) : Request → Result Ledger
  | .instruction i => Token.process rt ctx accounts i σ
  | .rotateSupplyElGamalPubkey _ offset =>
    Token.process rt ctx accounts (.rotateSupplyElGamalPubkey offset.toInt) σ
  | r => do
    let _ ← r.answer K ctx accounts σ
    return σ

section Inputs

variable (K : Conversions) (I : SplInterfaces)

/-- `Processor::process`. -/
def processInput (rt : Runtime) (ctx : Context) (accounts : List AccountInfo) (input : Bytes)
    (σ : Ledger) : Result Ledger := do
  let r ← interpret I input
  r.process K rt ctx accounts σ

/-- The return data of an input. -/
def answerInput (ctx : Context) (accounts : List AccountInfo) (input : Bytes) (σ : Ledger) :
    Result (Option Bytes) := do
  let r ← interpret I input
  r.answer K ctx accounts σ

/-- One step of the chain, by an input that the program accepts or by someone else. -/
inductive InputStep (rt : Runtime) : Ledger → Ledger → Prop
  | input {ctx accounts input σ σ'} (h : processInput K I rt ctx accounts input σ = .ok σ') :
      InputStep rt σ σ'
  | outside {σ σ'} (h : EnvStep σ σ') : InputStep rt σ σ'

end Inputs

end SolanaEasy.Token

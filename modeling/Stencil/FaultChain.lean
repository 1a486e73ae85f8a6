import Stencil.Report

/-!
# Fault chains — an origin and the contexts wrapped around it

Whatever fails has an origin: a fault of the library, a file, a settings text, or a plain
message. Callers wrap contexts around it. A chain is reported under the outermost fault
that it holds; without one, under its outermost text with all others as numbered causes.
-/

namespace Stencil

/-- How a file can fail to be read. -/
inductive FileProblem where
  | notFound
  | permissionDenied
  | invalidData
  | other
deriving Repr, DecidableEq

/-- Where a chain begins. -/
inductive Origin where
  | fault (fault : Fault)
  | file (problem : FileProblem) (reason : String)
  | toml (reason : String)
  | plain (words : String)
deriving Repr, DecidableEq

/-- What is wrapped around an origin. -/
inductive Context where
  | note (words : String)
  | fault (fault : Fault)
deriving Repr, DecidableEq

/-- An origin with the contexts around it, the outermost first. -/
structure FaultChain where
  contexts : List Context
  origin : Origin
deriving Repr, DecidableEq

/-- The text of an origin. -/
def Origin.text : Origin → String
  | .fault known => known.message
  | .file _ reason => reason
  | .toml reason => reason
  | .plain words => words

/-- The text of a context. -/
def Context.text : Context → String
  | .note words => words
  | .fault known => known.message

/-- The fault that a context is. -/
def Context.fault? : Context → Option Fault
  | .note _ => none
  | .fault known => some known

namespace FaultChain

/-- An origin without contexts. -/
def of (origin : Origin) : FaultChain :=
  ⟨[], origin⟩

/-- A chain with one more context around it. -/
def wrap (context : Context) (chain : FaultChain) : FaultChain :=
  { chain with contexts := context :: chain.contexts }

/-- The texts of a chain, the outermost first. -/
def texts (chain : FaultChain) : List String :=
  chain.contexts.map Context.text ++ [chain.origin.text]

/-- The outermost fault of a chain. -/
def fault? (chain : FaultChain) : Option Fault :=
  match chain.contexts.findSome? Context.fault? with
  | some fault => some fault
  | none =>
    match chain.origin with
    | .fault known => some known
    | _ => none

/-- The texts around a fault: those of a whole chain, unless its origin is the fault. -/
def around (chain : FaultChain) : List String :=
  match chain.origin with
  | .fault _ => chain.contexts.map Context.text
  | _ => chain.texts

/-- Causes on lines of their own, numbered from `n`. -/
def numbered (n : Nat) : List String → String
  | [] => ""
  | cause :: causes => s!"\n  {n}: {cause}" ++ numbered (n + 1) causes

/-- Texts under the first of them. -/
def story : List String → String
  | [] => ""
  | [text] => text
  | text :: causes => text ++ "\n\nCaused by:" ++ numbered 1 causes

/-- Puts the texts around a fault in front of its details. -/
def withSurroundings (surroundings : List String) (report : Report) : Report :=
  if surroundings.isEmpty then report
  else
    let joined := ": ".intercalate surroundings
    let details := match report.details with
      | none => joined
      | some existing => joined ++ "\n" ++ existing
    { report with details := some details }

/-- The report on a chain. -/
def report (chain : FaultChain) : Report :=
  match chain.fault? with
  | some fault => withSurroundings chain.around fault.report
  | none =>
    let text := story chain.texts
    match chain.origin with
    | .file .notFound _ =>
      ⟨.other text, some "Check that the file exists and the path is correct", none⟩
    | .toml _ =>
      ⟨.settings text,
        some ("Check the TOML syntax of the configuration file. " ++
          "Verify quotes and brackets"),
        none⟩
    | _ => ⟨.other text, none, none⟩

end FaultChain

end Stencil

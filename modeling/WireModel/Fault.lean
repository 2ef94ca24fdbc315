import WireModel.Spec.Error
import WireModel.Value.Basic

/-!
# Faults

What can end a run, with the wording of each. A fault may be the cause of another one, and several
faults may be reported together. Some causes come from outside (the file system, a file that is no
document) and have no words of their own here; then a fault around them has none either.
-/

namespace WireModel

/-- What a generation fault is about. Empty texts stand for nothing known. -/
structure Site where
  backend : Text := []
  module : Text := []
  file : Text := []
  deriving DecidableEq, Inhabited

/-- What can end a run. -/
inductive Fault where
  /-- A fault that is nothing but its words. -/
  | plain (text : Text)
  | compile (e : CompileError)
  /-- Several faults reported together, or one that is reported in that way. -/
  | joined (fs : List Fault)
  /-- A setting that cannot be used, with its value, which is null if it is not shown. -/
  | config (option : Text) (value : Value) (detail : Option Text)
  /-- A failure to generate or write files. -/
  | generation (site : Site) (detail : Text)
  /-- A failure to generate or write files that another fault led to. -/
  | generationBy (site : Site) (detail : Text) (cause : Fault)
  /-- An operation on a path that the file system refuses, with words put in front. -/
  | path (words operation path reason : Text)
  /-- A file that is no document of its format, with what is known about it. -/
  | format (step : Text) (detail : Option Text)
  /-- A spec file that cannot be loaded. -/
  | load (file : Text) (cause : Fault)
  /-- A null entry of a spec file where an entry is needed, which ends a run without a report. -/
  | nullEntry
  /-- A cause that has no words here. -/
  | unworded
  deriving Inhabited

namespace Fault

/-- A setting that cannot be used, whose value is not shown. -/
def setting (option detail : Text) : Fault := config option .null (some detail)

/-- A setting that cannot be used because of its value. -/
def badSetting (option : Text) (value : Value) (detail : Text) : Fault :=
  config option value (some detail)

/-- Compile errors as one fault. -/
def compileErrors (es : List CompileError) : Fault := joined (es.map compile)

/-- The wording of a generation fault without its cause. -/
def siteMessage (site : Site) (detail : Text) : Text :=
  messageMark ++ "generation error" ++
  CompileError.part " in backend " site.backend "" ++
  CompileError.part " for module " site.module "" ++
  CompileError.part " (file: " site.file ")" ++
  CompileError.part ": " detail ""

mutual

/-- The wording of a fault, if everything in it has words. -/
def message : Fault → Option Text
  | plain t => some t
  | compile e => some e.message
  | joined fs => (messages fs).map (Text.join "\n")
  | config option value detail =>
    let shown : Text := match value with
      | .null => []
      | v => " (value: " ++ v.display ++ ")"
    detail.map fun d => messageMark ++ "config error for " ++ option.quote ++ shown ++ ": " ++ d
  | generation site detail => some (siteMessage site detail)
  | generationBy site detail cause =>
    cause.message.map fun m => siteMessage site detail ++ ": " ++ m
  | path words operation p reason => some (words ++ operation ++ " " ++ p ++ ": " ++ reason)
  | format step detail => detail.map fun d => step ++ ": " ++ d
  | load file cause => cause.message.map fun m => "load " ++ file ++ ": " ++ m
  | nullEntry => none
  | unworded => none

/-- The wordings of faults, if all have words. -/
def messages : List Fault → Option (List Text)
  | [] => some []
  | f :: fs => do
    let t ← f.message
    let ts ← messages fs
    pure (t :: ts)

end

/-- A fault followed by what led to it, innermost last. Faults reported together are not looked
into. -/
def chain : Fault → List Fault
  | generationBy site detail cause => generationBy site detail cause :: cause.chain
  | load file cause => load file cause :: cause.chain
  | f => [f]

/-- The kind of compile error in the chain of a fault. -/
def compileKinds (f : Fault) : List ErrorKind :=
  f.chain.filterMap fun
    | compile e => e.kind
    | _ => none

/-- Whether a compile error is in the chain of a fault. -/
def isCompile (f : Fault) : Bool :=
  f.chain.any fun
    | compile _ => true
    | _ => false

/-- Whether a fault is about a setting, by itself or through its cause. -/
def isConfig (f : Fault) : Bool :=
  f.chain.any fun
    | config _ _ _ => true
    | joined fs => fs.any fun
      | config _ _ _ => true
      | _ => false
    | _ => false

/-- Whether a fault is about generation, by itself or through its cause. -/
def isGeneration (f : Fault) : Bool :=
  f.chain.any fun
    | generation _ _ | generationBy _ _ _ => true
    | _ => false

/-- Whether a fault has a cause. -/
def hasCause : Fault → Bool
  | generationBy _ _ _ | load _ _ => true
  | _ => false

end Fault

end WireModel

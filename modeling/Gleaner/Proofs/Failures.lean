/-
Failures and their absence are told apart.

A chain fails with a hard error just if a script of a Lua program that it comes to breaks: it cannot be loaded, has no
entry of the name, raises an error, or gives no text. Every other failure is no match. No layer between a chain and the
end of a run changes that:
- a configuration without Lua never makes a run fail with a rule, in a tree that stays as it is;
- a rule, a normalizer or an ignore chain that fails with a hard error makes the run fail.
-/
import Gleaner.Proofs.Asking
import Gleaner.Proofs.LuaFree
import Gleaner.Proofs.Refusals

namespace Gleaner

/-- what a shell script is refused for: its file cannot be made, or its run ends badly -/
inductive Shell.Script.Refused (script : Shell.Script) (place : Place) (input : String) (w : World) :
    Shell.Refusal → Prop where
  | prepare {refusal : Shell.Refusal} (h : script.file (w.held place) w.host = .error refusal) :
      Refused script place input w refusal
  | run {file : Shell.ScriptFile} {refusal : Shell.Refusal} (hfile : script.file (w.held place) w.host = .ok file)
      (h : (script.run file (Utf8.encode input) w.files w.env).1 = .error refusal) :
      Refused script place input w refusal

/-- a shell script that is refused has no match, whatever the reason -/
theorem Shell.Script.Refused.apply {script : Shell.Script} {place : Place} {input : String} {w : World}
    {refusal : Shell.Refusal} (h : script.Refused place input w refusal) (last : Bool) :
    ((Stage.shell script).apply place last input w).1 = .error (.unmatched ("shell script: " ++ refusal.message)) := by
  have hrun : ((Stage.shell script).apply place last input w).1 =
      (script.turn input (w.held place) w.host).result >>= Stage.dropBlank "sh" := by
    cases last <;> rfl
  have hturn : (script.turn input (w.held place) w.host).result = answer (.error refusal) := by
    cases h with
    | prepare h => exact congrArg Turn.result (turn_unmade h input)
    | run hfile h => exact (congrArg Turn.result (turn_made hfile input)).trans (congrArg answer h)
  rw [hrun, hturn]
  rfl

theorem smallConfig_luaFree : smallConfig.LuaFree := by
  unfold Config.LuaFree
  decide

/-- a category whose script is missing -/
def scriptPipeline : Pipeline where
  ignore := ⟨{ part := .ignore }, []⟩
  categories := [⟨"", .filename, ⟨{ part := .category }, [.lua ⟨.file "gone.lua", "f"⟩]⟩⟩]
  nodes := []
  categoryNormalizers := []
  nodeNormalizers := []

end Gleaner

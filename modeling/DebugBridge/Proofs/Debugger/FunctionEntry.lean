import DebugBridge.Debugger.Breakpoint.Table
import DebugBridge.Proofs.Script.Blocking

/-!
# Where functions are entered and left

A breakpoint on the entry of a function goes to the first line from its header on where the engine can
stop, and one on its return to its last line.  The entry is looked for up to the end of the file, not
of the function.
-/

namespace DebugBridge
namespace ScriptContext

open Node

variable {context : ScriptContext} {nodes : List Node} {function : Node} {name : String}

/-- Whether the engine can stop on a line of a file. -/
def Executable (context : ScriptContext) (file : String) (line : Nat) : Prop :=
  ∃ scanned, context.includes.scanFile context.host file = .ok scanned ∧ scanned.Executable line

/-- Where a line breakpoint of a file goes, be it that the file cannot be scanned. -/
theorem resolveLine_cases (context : ScriptContext) (file : String) (requested : Nat) :
    (∃ line, context.resolveLine file requested = ⟨line, true⟩ ∧ requested ≤ line ∧
      context.Executable file line ∧
      ∀ earlier, requested ≤ earlier → earlier < line → ¬ context.Executable file earlier) ∨
    context.resolveLine file requested = ⟨requested, false⟩ ∧
      ∀ line, requested ≤ line → ¬ context.Executable file line := by
  cases scan : context.includes.scanFile context.host file with
  | error error =>
      refine .inr ⟨by rw [resolveLine, scan], ?_⟩
      rintro line - ⟨scanned, found, -⟩
      rw [scan] at found
      cases found
  | ok scanned =>
      have stops_iff (line : Nat) : context.Executable file line ↔ scanned.Executable line := by
        constructor
        · rintro ⟨other, found, stops⟩
          rw [scan] at found
          cases found
          exact stops
        · exact fun stops => ⟨scanned, scan, stops⟩
      simp only [stops_iff, resolveLine, scan]
      exact scanned.resolveLine_cases requested

/-- Of the breakpoints on a function of the program, the one on its return goes to its last line, and
the one on its entry to a line of its file that is none before its first one.  The entry lies in the
function just if the engine can stop on a line of the function, or on none after it. -/
theorem entry_in_function
    (found : context.includes.findProgram context.host context.program = .ok nodes)
    (named : findFunction? nodes name = some function) :
    context.resolveFunction? name true =
      some (function.location.file, function.location.last.line) ∧
    ∃ line, context.resolveFunction? name false = some (function.location.file, line) ∧
      function.location.first.line ≤ line ∧
      (line ≤ function.location.last.line ↔
        (∃ inside, function.location.covers inside = true ∧
          context.Executable function.location.file inside) ∨
        ∀ after, function.location.last.line < after →
          ¬ context.Executable function.location.file after) := by
  have located : Located nodes function :=
    located_of_mem_flattenAll (fun _ => .root) (List.mem_of_find?_eq_some named)
  have ordered := (IncludeContext.lines_of_located found located).2
  have resolved (onReturn : Bool) : context.resolveFunction? name onReturn =
      if onReturn then some (function.location.file, function.location.last.line)
      else some (function.location.file,
        (context.resolveLine function.location.file function.location.first.line).line) := by
    rw [resolveFunction?, found, Except.toOption, Option.bind_eq_bind, Option.bind_some, named]
    rfl
  have covers_iff (line : Nat) : function.location.covers line = true ↔
      function.location.first.line ≤ line ∧ line ≤ function.location.last.line := by
    rw [Location.covers, Bool.and_eq_true, decide_eq_true_eq, decide_eq_true_eq]
  refine ⟨resolved true, _, resolved false, ?_⟩
  simp only [covers_iff]
  rcases context.resolveLine_cases function.location.file function.location.first.line with
    ⟨line, goes, after, stops, none⟩ | ⟨goes, none⟩
  · rw [goes]
    refine ⟨after, fun inside => .inl ⟨line, ⟨after, inside⟩, stops⟩, ?_⟩
    rintro (⟨inside, ⟨first, last⟩, here⟩ | outside)
    · -- The entry is the first line where the engine can stop.
      exact (Nat.le_of_not_lt fun earlier => none inside first earlier here).trans last
    · exact Nat.le_of_not_lt fun later => outside line later stops
  · rw [goes]
    exact ⟨Nat.le_refl _, fun _ => .inr fun line later => none line (ordered.trans later.le),
      fun _ => ordered⟩

/-- A program of one script. -/
def ofScript (text : String) : ScriptContext where
  host := Host.ofScripts [("main.ahk", text)]
  includes := IncludeContext.inMain
  program := "main.ahk"

/-- A function whose header takes two lines is entered in its body. -/
theorem entry_in_function_wide :
    ∃ nodes function line,
      (ofScript "F()\n\x7b\nreturn 1\n\x7d\n").includes.findProgram
        (ofScript "F()\n\x7b\nreturn 1\n\x7d\n").host "main.ahk" = .ok nodes ∧
      findFunction? nodes "F" = some function ∧
      (ofScript "F()\n\x7b\nreturn 1\n\x7d\n").resolveFunction? "F" true = some ("main.ahk", 4) ∧
      (ofScript "F()\n\x7b\nreturn 1\n\x7d\n").resolveFunction? "F" false = some ("main.ahk", line) ∧
      1 ≤ line ∧ line ≤ 4 := by
  generalize context_eq : ofScript "F()\n\x7b\nreturn 1\n\x7d\n" = context
  have main : context.program = "main.ahk" := context_eq ▸ rfl
  have looks : (context.includes.findProgram context.host "main.ahk").toOption.any fun nodes =>
      (findFunction? nodes "F").any fun function => function.location.file == "main.ahk" &&
        function.location.first.line == 1 && function.location.last.line == 4 := by
    subst context_eq
    decide +kernel
  have stops : (context.includes.scanFile context.host "main.ahk").toOption.any fun scanned =>
      !scanned.blockedLines.contains 3 && scanned.hasCode 3 := by
    subst context_eq
    decide +kernel
  obtain ⟨nodes, found, looks⟩ := IncludeContext.exists_ok_of_any looks
  obtain ⟨scanned, scan, stops⟩ := IncludeContext.exists_ok_of_any stops
  simp only [Option.any_eq_true, Bool.and_eq_true, beq_iff_eq, Bool.not_eq_true',
    List.contains_eq_mem, decide_eq_false_iff_not] at looks stops
  obtain ⟨function, named, ⟨inMain, first⟩, last⟩ := looks
  obtain ⟨leaves, line, enters, after, inside_iff⟩ := entry_in_function (main ▸ found) named
  rw [inMain, last] at leaves
  rw [inMain] at enters
  rw [inMain, last] at inside_iff
  refine ⟨nodes, function, line, found, named, leaves, enters, first ▸ after, inside_iff.2 (.inl ?_)⟩
  refine ⟨3, ?_, scanned, scan, stops.1, stops.2⟩
  rw [Location.covers, first, last]
  rfl

/-- The entry of a function without code is sought after the function. -/
theorem entry_after_function :
    ∃ nodes function,
      (ofScript "F() \x7b\n\x7d\nx := 1\n").includes.findProgram
        (ofScript "F() \x7b\n\x7d\nx := 1\n").host "main.ahk" = .ok nodes ∧
      findFunction? nodes "F" = some function ∧
      (ofScript "F() \x7b\n\x7d\nx := 1\n").resolveFunction? "F" false = some ("main.ahk", 3) ∧
      function.location.covers 3 = false := by
  generalize context_eq : ofScript "F() \x7b\n\x7d\nx := 1\n" = context
  have looks : (context.includes.findProgram context.host "main.ahk").toOption.any fun nodes =>
      (findFunction? nodes "F").any fun function => !function.location.covers 3 := by
    subst context_eq
    decide +kernel
  have enters : context.resolveFunction? "F" false = some ("main.ahk", 3) := by
    subst context_eq
    decide +kernel
  obtain ⟨nodes, found, looks⟩ := IncludeContext.exists_ok_of_any looks
  simp only [Option.any_eq_true, Bool.not_eq_true'] at looks
  obtain ⟨function, named, outside⟩ := looks
  exact ⟨nodes, function, found, named, enters, outside⟩

end ScriptContext
end DebugBridge

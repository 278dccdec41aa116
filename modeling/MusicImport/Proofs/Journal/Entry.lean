import Mathlib.Data.List.TakeWhile
import MusicImport.Proofs.Journal.Snapshot
import MusicImport.Proofs.Journal.Timestamp
import MusicImport.Proofs.Json.RoundTrip
import MusicImport.Proofs.Paths

/-! An entry is read back from its line, and a snapshot from the lines of its entries, whatever follows
the last line end. -/
namespace MusicImport

theorem Outcome.ofJson?_name (o : Outcome) : Outcome.ofJson? (.text o.name) = some o := by
  cases o <;> decide

theorem ApplyStep.ofJson?_toJson (s : ApplyStep) : ApplyStep.ofJson? s.toJson = some s := by
  cases s <;> decide

namespace ResumeEntry

theorem steps_ofJson? (steps : List ApplyStep) :
    (Json.ofList ApplyStep.toJson steps).list? ApplyStep.ofJson? = some steps := by
  have hsteps : (steps.map ApplyStep.toJson).mapM ApplyStep.ofJson? = some steps := by
    induction steps with
    | nil => rfl
    | cons s steps ih =>
      rw [List.map_cons, List.mapM_cons, ApplyStep.ofJson?_toJson, ih]
      rfl
  exact hsteps

theorem numberless_toJson (e : ResumeEntry) : e.toJson.Numberless := by
  refine .object fun m hm => ?_
  obtain hm | hm := List.mem_append.mp hm
  · simp only [List.mem_cons, List.not_mem_nil, or_false] at hm
    obtain rfl | rfl | rfl := hm <;> exact .text _
  · split at hm
    · cases hm
    · rw [List.mem_singleton] at hm
      subst hm
      refine .array fun v hv => ?_
      obtain ⟨s, -, rfl⟩ := List.mem_map.mp hv
      exact .text _

theorem ofJson?_toJson {e : ResumeEntry} (h : e.timestamp.isValid) : ofJson? e.toJson = some e := by
  obtain ⟨key, outcome, timestamp, steps⟩ := e
  have htime : Timestamp.ofText? timestamp.text = some timestamp := Timestamp.ofText?_text h
  by_cases hsteps : steps = []
  · subst hsteps
    simp [ofJson?, toJson, Json.record?, Json.Slot.required, Json.Slot.orDefault, Json.text?,
      Outcome.ofJson?_name, htime]
  · simp [ofJson?, toJson, Json.record?, Json.Slot.required, Json.Slot.orDefault, Json.text?,
      Outcome.ofJson?_name, htime, hsteps, steps_ofJson?]

/-- An entry is read back from its line. -/
theorem ofLine?_print {e : ResumeEntry} (h : e.timestamp.isValid) :
    ofLine? (String.ofList e.toJson.print) = some e := by
  have hjson : Json.parse? (String.ofList e.toJson.print) = some e.toJson :=
    Json.parse?_compact e.numberless_toJson
  simp [ofLine?, hjson, ofJson?_toJson h]

theorem newline_not_mem_print (e : ResumeEntry) : '\n' ∉ e.toJson.print :=
  e.numberless_toJson.newline_not_mem

/-- A line starts with a brace. -/
theorem trimChars_print_ne_nil (e : ResumeEntry) : Text.trimChars e.toJson.print ≠ [] := by
  have hbrace : Text.isBlank '\x7b' = false := by decide
  intro h
  rw [toJson, Json.print, Text.trimChars, Text.dropEndWhile, List.dropWhile_cons_of_neg (by simp [hbrace]),
    List.reverse_eq_nil_iff, List.dropWhile_eq_nil_iff] at h
  have := h '\x7b' (by simp)
  simp [hbrace] at this

end ResumeEntry

namespace JournalSnapshot

theorem ofLines_prints {es : List ResumeEntry} (h : ∀ e ∈ es, e.timestamp.isValid) (number : Nat)
    (s : JournalSnapshot) : ofLines number s (es.map fun e => e.toJson.print) = .ok (s.extend es) := by
  induction es generalizing number s with
  | nil => rfl
  | cons e es ih =>
    have hblank : (Text.trimChars e.toJson.print).isEmpty = false := by
      simpa using e.trimChars_print_ne_nil
    rw [List.map_cons, ofLines, hblank, ResumeEntry.ofLine?_print (h e (.head _))]
    exact ih (fun x hx => h x (.tail _ hx)) (number + 1) (s.insert e)

/-- The lines of entries, cut where they end. -/
theorem splitChars_lines (es : List ResumeEntry) {tail : List Char} (h : '\n' ∉ tail) :
    Text.splitChars '\n' (es.flatMap ResumeEntry.line ++ tail) =
      es.map (fun e => e.toJson.print) ++ [tail] := by
  induction es with
  | nil => simp [Text.splitChars_of_not_mem h]
  | cons e es ih =>
    have hcut : (e :: es).flatMap ResumeEntry.line ++ tail =
        e.toJson.print ++ '\n' :: (es.flatMap ResumeEntry.line ++ tail) := by
      simp [ResumeEntry.line]
    rw [hcut, Text.splitChars_append, Text.splitChars_of_not_mem e.newline_not_mem_print, ih]
    rfl

/-- The snapshot of a text is that of its complete lines. -/
theorem ofText_lines {es : List ResumeEntry} (h : ∀ e ∈ es, e.timestamp.isValid) {tail : List Char}
    (htail : '\n' ∉ tail) :
    ofText (String.ofList (es.flatMap ResumeEntry.line ++ tail)) = .ok (ofEntries es) := by
  rw [ofText, String.toList_ofList, splitChars_lines es htail, List.dropLast_concat]
  exact ofLines_prints h 1 {}

end JournalSnapshot
end MusicImport

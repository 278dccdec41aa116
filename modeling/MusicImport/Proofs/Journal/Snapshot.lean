import Mathlib.Data.List.Nodup
import MusicImport.Journal.Snapshot

/-! What a journal says of a group after more entries: the last of them that is of the group, or what it
said before. -/
namespace MusicImport
namespace JournalSnapshot

/-- The snapshot after more entries. -/
def extend (s : JournalSnapshot) (es : List ResumeEntry) : JournalSnapshot := es.foldl insert s

@[simp] theorem extend_cons (s : JournalSnapshot) (e : ResumeEntry) (es : List ResumeEntry) :
    s.extend (e :: es) = (s.insert e).extend es := rfl

theorem get?_extend (s : JournalSnapshot) (es : List ResumeEntry) (key : GroupKey) :
    (s.extend es).get? key = (es.filter (·.key = key)).getLast?.or (s.get? key) := by
  induction es generalizing s with
  | nil => rfl
  | cons e rest ih =>
    rw [extend_cons, ih]
    by_cases hkey : e.key = key
    · subst hkey
      rw [List.filter_cons_of_pos (by simp), get?_insert_self, List.getLast?_cons]
      cases (rest.filter (·.key = e.key)).getLast? <;> rfl
    · rw [List.filter_cons_of_neg (by simpa using hkey), get?_insert_of_ne s e (Ne.symm hkey)]

/-- The last entry of a group among entries in the order they were written. -/
def latest? (es : List ResumeEntry) (key : GroupKey) : Option ResumeEntry :=
  (es.filter (·.key = key)).getLast?

theorem mem_of_latest? {es : List ResumeEntry} {key : GroupKey} {e : ResumeEntry}
    (h : latest? es key = some e) : e ∈ es ∧ e.key = key := by
  have hmem := List.mem_filter.mp (List.mem_of_getLast? h)
  simpa using hmem

theorem latest?_of_mem {es : List ResumeEntry} {e : ResumeEntry} (hkeys : (es.map (·.key)).Nodup)
    (he : e ∈ es) : latest? es e.key = some e := by
  have hmem : e ∈ es.filter (·.key = e.key) := List.mem_filter.mpr ⟨he, by simp⟩
  cases hlatest : latest? es e.key with
  | none =>
    rw [latest?, List.getLast?_eq_none_iff] at hlatest
    exact absurd hlatest (List.ne_nil_of_mem hmem)
  | some x =>
    obtain ⟨hx, hkey⟩ := mem_of_latest? hlatest
    rw [List.inj_on_of_nodup_map hkeys hx he hkey]

theorem get?_ofEntries (es : List ResumeEntry) (key : GroupKey) :
    (ofEntries es).get? key = latest? es key := by
  have h := get?_extend {} es key
  rw [show ({} : JournalSnapshot).get? key = none from rfl, Option.or_none] at h
  exact h

/-- A snapshot has each group once. -/
def Distinct (s : JournalSnapshot) : Prop := (s.entries.map (·.key)).Nodup

theorem Distinct.insert {s : JournalSnapshot} (h : s.Distinct) (e : ResumeEntry) :
    (s.insert e).Distinct := by
  unfold Distinct JournalSnapshot.insert
  rw [List.map_cons, List.nodup_cons]
  constructor
  · intro hmem
    obtain ⟨x, hx, hkey⟩ := List.mem_map.mp hmem
    have hne : x.key ≠ e.key := by simpa using (List.mem_filter.mp hx).2
    exact hne hkey
  · exact h.sublist (List.filter_sublist.map _)

theorem Distinct.extend {s : JournalSnapshot} (h : s.Distinct) (es : List ResumeEntry) :
    (s.extend es).Distinct := by
  induction es generalizing s with
  | nil => exact h
  | cons e rest ih => exact ih (h.insert e)

theorem distinct_ofEntries (es : List ResumeEntry) : (ofEntries es).Distinct :=
  Distinct.extend (s := {}) List.nodup_nil es

/-- The entries of such a snapshot are those that it finds by their keys. -/
theorem Distinct.mem_iff {s : JournalSnapshot} (h : s.Distinct) {e : ResumeEntry} :
    e ∈ s.entries ↔ s.get? e.key = some e := by
  constructor
  · intro he
    have hsome : (s.get? e.key).isSome := List.find?_isSome.mpr ⟨e, he, by simp⟩
    obtain ⟨x, hx⟩ := Option.isSome_iff_exists.mp hsome
    have hkey : x.key = e.key := by simpa using List.find?_some hx
    rw [hx, List.inj_on_of_nodup_map h (List.mem_of_find?_eq_some hx) he hkey]
  · exact List.mem_of_find?_eq_some

theorem get?_key {s : JournalSnapshot} {key : GroupKey} {e : ResumeEntry} (h : s.get? key = some e) :
    e.key = key := by simpa using List.find?_some h

theorem Distinct.mem_settledKeys {s : JournalSnapshot} (h : s.Distinct) {key : GroupKey} :
    key ∈ s.settledKeys ↔ ∃ e, s.get? key = some e ∧ e.outcome.isSettled := by
  unfold settledKeys
  rw [List.mem_map]
  constructor
  · rintro ⟨e, he, rfl⟩
    obtain ⟨hmem, hsettled⟩ := List.mem_filter.mp he
    exact ⟨e, h.mem_iff.mp hmem, hsettled⟩
  · rintro ⟨e, he, hsettled⟩
    obtain rfl := get?_key he
    exact ⟨e, List.mem_filter.mpr ⟨h.mem_iff.mpr he, hsettled⟩, rfl⟩

theorem mem_completedSteps {s : JournalSnapshot} {key : GroupKey} {step : ApplyStep} :
    step ∈ s.completedSteps key ↔
      ∃ e, s.get? key = some e ∧ e.outcome = .failed ∧ step ∈ e.completedSteps := by
  unfold completedSteps
  cases s.get? key with
  | none => simp
  | some e => by_cases hfailed : e.outcome = .failed <;> simp [hfailed]

end JournalSnapshot
end MusicImport

import Mathlib.Tactic.SplitIfs
import MusicImport.Json.Parser
import MusicImport.Json.Printer

/-! What is written is read back: a value without numbers, and anything behind it is left over. Its text
stands on one line. -/
namespace MusicImport.Json

theorem codeUnit?_control : ∀ n, n < 0x20 →
    codeUnit? '0' '0' (hexChar (n / 16)) (hexChar (n % 16)) = some n := by decide

/-- One character goes through as the code unit it is, whatever the escape. -/
theorem scanString_escapeChar (c : Char) (units : List Nat) (rest : List Char) :
    scanString units (escapeChar c ++ rest) = scanString (c.toNat :: units) rest := by
  unfold escapeChar
  split_ifs with h1 h2 h3 h4 h5 h6 h7 h8
  · subst h1
    simp [scanString, shortEscape?]
  · subst h2
    simp [scanString, shortEscape?]
  · subst h3
    simp [scanString, shortEscape?]
  · subst h4
    simp [scanString, shortEscape?]
  · subst h5
    simp [scanString, shortEscape?]
  · subst h6
    simp [scanString, shortEscape?]
  · subst h7
    simp [scanString, shortEscape?]
  · simp only [List.cons_append, List.nil_append]
    rw [scanString, codeUnit?_control c.toNat h8]
  · rw [List.cons_append, List.nil_append, scanString.eq_def]
    split
    · simp_all
    · simp_all
    · simp_all
    · simp_all
    next hcons =>
      obtain ⟨rfl, rfl⟩ := List.cons.inj hcons
      exact if_neg h8

theorem scanString_escaped (cs : List Char) (units : List Nat) (rest : List Char) :
    scanString units (cs.flatMap escapeChar ++ '"' :: rest) =
      some ((cs.map Char.toNat).reverse ++ units, rest) := by
  induction cs generalizing units with
  | nil => simp [scanString]
  | cons c cs ih =>
    rw [List.flatMap_cons, List.append_assoc, scanString_escapeChar, ih]
    simp

/-- No character is half of a pair of code units. -/
theorem charsOfUnits_toNat (cs : List Char) : charsOfUnits (cs.map Char.toNat) = some cs := by
  induction cs with
  | nil => rfl
  | cons c cs ih =>
    have hvalid : c.toNat < 0xD800 ∨ 0xDFFF < c.toNat ∧ c.toNat < 0x110000 := c.valid
    have hlow : ¬ (0xDC00 ≤ c.toNat ∧ c.toNat ≤ 0xDFFF) := by omega
    have hhigh : ¬ (0xD800 ≤ c.toNat ∧ c.toNat ≤ 0xDBFF) := by omega
    rw [List.map_cons, charsOfUnits.eq_def]
    simp [hlow, hhigh, ih]

/-- Behind the opening quote a text is read up to its closing quote. -/
theorem parseString_printed (s : String) (rest : List Char) :
    parseString (s.toList.flatMap escapeChar ++ '"' :: rest) = some (some s, rest) := by
  unfold parseString
  rw [scanString_escaped]
  simp [charsOfUnits_toNat]

theorem newline_not_mem_escapeChar (c : Char) : '\n' ∉ escapeChar c := by
  have hhex : ∀ n, n < 0x20 → '\n' ≠ hexChar (n / 16) ∧ '\n' ≠ hexChar (n % 16) := by decide
  unfold escapeChar
  split_ifs with h1 h2 h3 h4 h5 h6 h7 h8
  · decide
  · decide
  · decide
  · decide
  · decide
  · decide
  · decide
  · have := hhex c.toNat h8
    simp [this]
  · simpa using Ne.symm h5

theorem newline_not_mem_printString (s : String) : '\n' ∉ printString s := by
  have hchars : '\n' ∉ s.toList.flatMap escapeChar := by
    intro h
    obtain ⟨c, -, hc⟩ := List.mem_flatMap.mp h
    exact newline_not_mem_escapeChar c hc
  simp [printString, hchars]

/-- A value that no number and no broken text is part of. -/
inductive Numberless : Json → Prop
  | null : Numberless .null
  | bool (b : Bool) : Numberless (.bool b)
  | text (s : String) : Numberless (.text s)
  | array {items : List Json} (h : ∀ v ∈ items, Numberless v) : Numberless (.array items)
  | object {members : List (String × Json)} (h : ∀ m ∈ members, Numberless m.2) :
      Numberless (.object members)

/-- How a value can start: not with a blank or a closing bracket. -/
theorem Numberless.print_eq_cons {j : Json} (h : Numberless j) :
    ∃ c cs, j.print = c :: cs ∧ isGap c = false ∧ c ≠ ']' := by
  cases h with
  | null => exact ⟨'n', _, rfl, by decide, by decide⟩
  | bool b =>
    cases b with
    | true => exact ⟨'t', _, rfl, by decide, by decide⟩
    | false => exact ⟨'f', _, rfl, by decide, by decide⟩
  | text s => exact ⟨'"', _, by rw [print, printString], by decide, by decide⟩
  | array => exact ⟨'[', _, by rw [print], by decide, by decide⟩
  | object => exact ⟨'\x7b', _, by rw [print], by decide, by decide⟩

theorem skipGaps_cons {c : Char} (h : isGap c = false) (cs : List Char) :
    skipGaps (c :: cs) = c :: cs := by simp [skipGaps, h]

/-- The parser reads a value off the front of a text and leaves the rest. -/
def Reads (j : Json) : Prop :=
  ∀ fuel rest, 2 * j.print.length ≤ fuel → parseValue fuel (j.print ++ rest) = some (j, rest)

theorem printItems_cons_cons (v w : Json) (vs : List Json) :
    printItems (v :: w :: vs) = v.print ++ ',' :: printItems (w :: vs) := by rw [printItems]

theorem printMembers_cons_cons (k : String) (v : Json) (m : String × Json)
    (ms : List (String × Json)) :
    printMembers ((k, v) :: m :: ms) =
      printString k ++ ':' :: (v.print ++ ',' :: printMembers (m :: ms)) := by rw [printMembers]

theorem parseItems_printed {items : List Json} (h : ∀ v ∈ items, Reads v) (hne : items ≠ [])
    (fuel : Nat) (rest : List Char) (hfuel : 2 * (printItems items).length + 1 ≤ fuel) :
    parseItems fuel (printItems items ++ ']' :: rest) = some (items, rest) := by
  induction items generalizing fuel with
  | nil => exact absurd rfl hne
  | cons v vs ih =>
    obtain ⟨fuel, rfl⟩ : ∃ n, fuel = n + 1 := ⟨fuel - 1, by omega⟩
    have hv := h v (.head _)
    cases vs with
    | nil =>
      rw [printItems] at hfuel ⊢
      rw [parseItems, hv fuel _ (by omega)]
      simp [skipGaps_cons, isGap]
    | cons w vs =>
      rw [printItems_cons_cons] at hfuel ⊢
      simp only [List.length_append, List.length_cons] at hfuel
      have hrest := ih (fun x hx => h x (.tail _ hx)) (by simp) fuel (by omega)
      rw [List.append_assoc, List.cons_append, parseItems, hv fuel _ (by omega)]
      simp [skipGaps_cons, isGap, hrest]

theorem parseMembers_printed {members : List (String × Json)} (h : ∀ m ∈ members, Reads m.2)
    (hne : members ≠ []) (fuel : Nat) (rest : List Char)
    (hfuel : 2 * (printMembers members).length + 1 ≤ fuel) :
    parseMembers fuel (printMembers members ++ '\x7d' :: rest) =
      some (members.map fun m => (some m.1, m.2), rest) := by
  induction members generalizing fuel with
  | nil => exact absurd rfl hne
  | cons m ms ih =>
    obtain ⟨k, v⟩ := m
    obtain ⟨fuel, rfl⟩ : ∃ n, fuel = n + 1 := ⟨fuel - 1, by omega⟩
    have hv : Reads v := h (k, v) (.head _)
    cases ms with
    | nil =>
      rw [printMembers, printString] at hfuel ⊢
      simp only [List.length_append, List.length_cons] at hfuel
      have hvalue := hv fuel ('\x7d' :: rest) (by omega)
      simp only [List.cons_append, List.append_assoc, List.nil_append, parseMembers]
      rw [skipGaps_cons (by decide)]
      simp [parseString_printed, skipGaps_cons, isGap, hvalue]
    | cons m ms =>
      rw [printMembers_cons_cons, printString] at hfuel ⊢
      simp only [List.length_append, List.length_cons] at hfuel
      have hvalue := hv fuel (',' :: (printMembers (m :: ms) ++ '\x7d' :: rest)) (by omega)
      have hrest := ih (fun x hx => h x (.tail _ hx)) (by simp) fuel (by omega)
      simp only [List.cons_append, List.append_assoc, List.nil_append, parseMembers]
      rw [skipGaps_cons (by decide)]
      simp [parseString_printed, skipGaps_cons, isGap, hvalue, hrest]

theorem mapM_named (members : List (String × Json)) :
    (members.map fun m => (some m.1, m.2)).mapM (fun m => m.1.map fun k => (k, m.2)) =
      some members := by
  induction members with
  | nil => rfl
  | cons m ms ih => simp [ih]

theorem reads_array {items : List Json} (hitems : ∀ v ∈ items, Numberless v)
    (h : ∀ v ∈ items, Reads v) : Reads (.array items) := by
  intro fuel rest hfuel
  rw [print] at hfuel ⊢
  simp only [List.length_cons, List.length_append, List.length_nil] at hfuel
  obtain ⟨fuel, rfl⟩ : ∃ n, fuel = n + 1 := ⟨fuel - 1, by omega⟩
  cases items with
  | nil => simp [printItems, parseValue, skipGaps_cons, isGap]
  | cons v vs =>
    have hread := parseItems_printed h (by simp) fuel rest (by omega)
    obtain ⟨c, cs, hcs, hgap, hbracket⟩ : ∃ c cs,
        printItems (v :: vs) ++ ']' :: rest = c :: cs ∧ isGap c = false ∧ c ≠ ']' := by
      obtain ⟨c, cs, hcs, hc⟩ := (hitems v (.head _)).print_eq_cons
      cases vs with
      | nil => exact ⟨c, cs ++ ']' :: rest, by simp [printItems, hcs], hc⟩
      | cons w vs => exact ⟨c, _, by rw [printItems_cons_cons, hcs]; rfl, hc⟩
    rw [List.cons_append, List.append_assoc, List.singleton_append, parseValue,
      skipGaps_cons (by decide)]
    rw [hcs] at hread ⊢
    simp [skipGaps_cons hgap, hbracket, hread]

theorem reads_object {members : List (String × Json)} (h : ∀ m ∈ members, Reads m.2) :
    Reads (.object members) := by
  intro fuel rest hfuel
  rw [print] at hfuel ⊢
  simp only [List.length_cons, List.length_append, List.length_nil] at hfuel
  obtain ⟨fuel, rfl⟩ : ∃ n, fuel = n + 1 := ⟨fuel - 1, by omega⟩
  cases members with
  | nil => simp [printMembers, parseValue, skipGaps_cons, isGap]
  | cons m ms =>
    have hread := parseMembers_printed h (by simp) fuel rest (by omega)
    obtain ⟨cs, hcs⟩ : ∃ cs, printMembers (m :: ms) ++ '\x7d' :: rest = '"' :: cs := by
      obtain ⟨k, v⟩ := m
      cases ms with
      | nil => exact ⟨_, by rw [printMembers, printString]; rfl⟩
      | cons m ms => exact ⟨_, by rw [printMembers_cons_cons, printString]; rfl⟩
    rw [List.cons_append, List.append_assoc, List.singleton_append, parseValue,
      skipGaps_cons (by decide)]
    rw [hcs] at hread ⊢
    have hnames := mapM_named (m :: ms)
    generalize (m :: ms).map (fun m => (some m.1, m.2)) = named at hread hnames
    simp [skipGaps_cons, isGap, hread, hnames]

/-- A value is read back from its text, whatever stands behind it. -/
theorem Numberless.reads {j : Json} (h : Numberless j) : Reads j := by
  induction h with
  | null =>
    intro fuel rest hfuel
    obtain ⟨fuel, rfl⟩ : ∃ n, fuel = n + 1 := ⟨fuel - 1, by simp [print] at hfuel; omega⟩
    simp [print, parseValue, skipGaps_cons, isGap, expect?]
  | bool b =>
    intro fuel rest hfuel
    cases b with
    | true =>
      obtain ⟨fuel, rfl⟩ : ∃ n, fuel = n + 1 := ⟨fuel - 1, by simp [print] at hfuel; omega⟩
      simp [print, parseValue, skipGaps_cons, isGap, expect?]
    | false =>
      obtain ⟨fuel, rfl⟩ : ∃ n, fuel = n + 1 := ⟨fuel - 1, by simp [print] at hfuel; omega⟩
      simp [print, parseValue, skipGaps_cons, isGap, expect?]
  | text s =>
    intro fuel rest hfuel
    rw [print, printString] at hfuel ⊢
    obtain ⟨fuel, rfl⟩ : ∃ n, fuel = n + 1 := ⟨fuel - 1, by simp at hfuel; omega⟩
    simp [parseValue, skipGaps_cons, isGap, parseString_printed]
  | array hitems ih => exact reads_array hitems ih
  | object _ ih => exact reads_object ih

/-- What is written is read back. -/
theorem parse?_compact {j : Json} (h : Numberless j) : parse? j.compact = some j := by
  have hread := h.reads (2 * j.print.length + 1) [] (by omega)
  rw [List.append_nil] at hread
  simp [parse?, compact, hread, skipGaps]

theorem newline_not_mem_printItems {items : List Json} (h : ∀ v ∈ items, '\n' ∉ v.print) :
    '\n' ∉ printItems items := by
  induction items with
  | nil => simp [printItems]
  | cons v vs ih =>
    have hv := h v (.head _)
    cases vs with
    | nil => simpa [printItems] using hv
    | cons w vs =>
      have hrest := ih fun x hx => h x (.tail _ hx)
      simp [printItems_cons_cons, hv, hrest]

theorem newline_not_mem_printMembers {members : List (String × Json)}
    (h : ∀ m ∈ members, '\n' ∉ m.2.print) : '\n' ∉ printMembers members := by
  induction members with
  | nil => simp [printMembers]
  | cons m ms ih =>
    obtain ⟨k, v⟩ := m
    have hkey := newline_not_mem_printString k
    have hv : '\n' ∉ v.print := h (k, v) (.head _)
    cases ms with
    | nil => simp [printMembers, hkey, hv]
    | cons m ms =>
      have hrest := ih fun x hx => h x (.tail _ hx)
      simp [printMembers_cons_cons, hkey, hv, hrest]

/-- The text of a value stands on one line. -/
theorem Numberless.newline_not_mem {j : Json} (h : Numberless j) : '\n' ∉ j.print := by
  induction h with
  | null => rw [print]; decide
  | bool b => cases b <;> (rw [print]; decide)
  | text s =>
    rw [print]
    exact newline_not_mem_printString s
  | array hitems ih =>
    have := newline_not_mem_printItems ih
    simp [print, this]
  | object hmembers ih =>
    have := newline_not_mem_printMembers ih
    simp [print, this]

end MusicImport.Json

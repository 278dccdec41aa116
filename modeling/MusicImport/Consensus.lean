import MusicImport.Text.Blank

/-! The most frequent value of a list; of equally frequent ones the first seen. Given twice: by
counting in order of first appearance, and by weighing each value with its first position. -/
namespace MusicImport

/-- Adds one to the count of a value, new values at the end. -/
def countUp {α : Type} [DecidableEq α] (a : α) : List (α × Nat) → List (α × Nat)
  | [] => [(a, 1)]
  | (b, n) :: rest => if b = a then (b, n + 1) :: rest else (b, n) :: countUp a rest

/-- Each value with its number of occurrences, in order of first appearance. -/
def counts {α : Type} [DecidableEq α] (xs : List α) : List (α × Nat) :=
  xs.foldl (fun cs a => countUp a cs) []

/-- The first of the pairs with the highest count. -/
def firstHighest? {α : Type} : List (α × Nat) → Option (α × Nat)
  | [] => none
  | p :: rest =>
    match firstHighest? rest with
    | some q => if p.2 < q.2 then some q else some p
    | none => some p

/-- The most frequent value, ties to the value seen first. -/
def mostCommon? {α : Type} [DecidableEq α] (xs : List α) : Option α :=
  (firstHighest? (counts xs)).map (·.1)

/-- A value stands above another by its frequency, or by an earlier first position. -/
def outweighs {α : Type} [DecidableEq α] (xs : List α) (a b : α) : Bool :=
  xs.count b < xs.count a || (xs.count a == xs.count b && xs.idxOf a < xs.idxOf b)

/-- The value that no other outweighs. -/
def consensus? {α : Type} [DecidableEq α] (xs : List α) : Option α :=
  xs.foldl (fun best a =>
    match best with
    | none => some a
    | some b => if outweighs xs a b then some a else some b) none

/-- Values without the blanks around them; blank ones do not count. -/
def trimmedValues (xs : List String) : List String :=
  (xs.map Text.trim).filter (· != "")

end MusicImport

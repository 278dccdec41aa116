import MusicImport.Identity
import MusicImport.Proofs.Text.Words

/-! Keys of identities. A normal form holds no separator, so that a key can be cut into the kind and the
normal forms of both parts again: no two texts make the keys of different identities equal. -/
namespace MusicImport

namespace Text

/-- No normal form holds the separator of the parts of a key. -/
theorem separator_notMem (s : String) : '\x1f' ∉ (normalize s).toList := by
  intro h
  have hneither : ¬ ('\x1f' = ' ' ∨ isAlphanumeric '\x1f') := by decide +kernel
  exact hneither ((normalize_inNormalForm s).mem h).1

/-- A text is cut at its first separator in one way only. -/
theorem append_separator_inj {sep : Char} {xs ys us vs : List Char} (hxs : sep ∉ xs) (hys : sep ∉ ys) :
    xs ++ sep :: us = ys ++ sep :: vs ↔ xs = ys ∧ us = vs := by
  constructor
  · intro h
    have hother {zs : List Char} (hzs : sep ∉ zs) : ∀ c ∈ zs, (c != sep) = true :=
      fun c hc => bne_iff_ne.mpr fun heq => hzs (heq ▸ hc)
    obtain ⟨rfl, hrest⟩ := append_unique h (hother hxs) (by simp) (hother hys) (by simp)
    exact ⟨rfl, (List.cons.inj hrest).2⟩
  · rintro ⟨rfl, rfl⟩
    rfl

end Text

namespace Identity

/-- The word for the kind of an identity. -/
def kindName (i : Identity) : String := if i.isAlbum then "album" else "item"

theorem kindName_inj {i j : Identity} : i.kindName.toList = j.kindName.toList ↔ i.isAlbum = j.isAlbum := by
  unfold kindName
  cases i.isAlbum <;> cases j.isAlbum <;> decide

theorem toList_key (i : Identity) : i.key.toList = i.kindName.toList ++
    '\x1f' :: ((Text.normalize i.parts.1).toList ++ '\x1f' :: (Text.normalize i.parts.2).toList) := by
  have hseparator : separator.toList = ['\x1f'] := rfl
  simp [key, kindName, hseparator]

theorem key_eq_iff {i j : Identity} : i.key = j.key ↔ i.isAlbum = j.isAlbum ∧
    Text.normalize i.parts.1 = Text.normalize j.parts.1 ∧
      Text.normalize i.parts.2 = Text.normalize j.parts.2 := by
  have hkind (i : Identity) : '\x1f' ∉ i.kindName.toList := by
    unfold kindName
    cases i.isAlbum <;> decide
  rw [← String.toList_inj, toList_key, toList_key,
    Text.append_separator_inj (hkind i) (hkind j),
    Text.append_separator_inj (Text.separator_notMem _) (Text.separator_notMem _), kindName_inj,
    String.toList_inj, String.toList_inj]

/-- A text is brought to a normal form that stays as it is: words of letters and numerals, all in lower case,
with single spaces between them. Identities have one key exactly if they are of one kind and both their
parts have one normal form. -/
theorem normalized_key :
    (∀ s, Text.normalize (Text.normalize s) = Text.normalize s ∧ Text.InNormalForm (Text.normalize s) ∧
      Text.lowercase (Text.normalize s) = Text.normalize s) ∧
      ∀ i j : Identity, i.key = j.key ↔ i.isAlbum = j.isAlbum ∧
        Text.normalize i.parts.1 = Text.normalize j.parts.1 ∧
          Text.normalize i.parts.2 = Text.normalize j.parts.2 :=
  ⟨fun s => ⟨Text.normalize_normalize s, Text.normalize_inNormalForm s,
    (Text.normalize_inNormalForm s).lowercase_eq⟩, fun _ _ => key_eq_iff⟩

/-- A dot that comes off its capital splits the word, and a sigma that took its final form keeps it. -/
example : Text.normalize "İΣ ΟΔΟΣ!" = "i ς οδος" ∧ Text.normalize "i ς οδος" = "i ς οδος" := by
  decide +kernel

end Identity
end MusicImport

import Mathlib.Data.List.Basic
import Mathlib.Data.List.Induction
import MusicImport.Scoring.LocalAlbum
import MusicImport.Task.Basic

/-! The most frequent value of a list is the one that no other outweighs: counting in order of first
appearance and weighing by first positions come to the same. -/
namespace MusicImport

variable {α : Type} {xs : List α} {a b c : α}

/-- Nothing before the first of the highest numbers is as high, and nothing after it is higher. -/
theorem firstHighest_split {cs : List (α × Nat)} (h : cs ≠ []) :
    ∃ p before after, firstHighest? cs = some p ∧ cs = before ++ p :: after ∧
      (∀ q ∈ before, q.2 < p.2) ∧ ∀ q ∈ after, q.2 ≤ p.2 := by
  induction cs with
  | nil => exact absurd rfl h
  | cons q rest ih =>
    by_cases hrest : rest = []
    · subst hrest
      exact ⟨q, [], [], rfl, rfl, by simp, by simp⟩
    obtain ⟨p, before, after, hp, hsplit, hbefore, hafter⟩ := ih hrest
    by_cases hlt : q.2 < p.2
    · refine ⟨p, q :: before, after, by simp [firstHighest?, hp, hlt], by rw [hsplit]; rfl, ?_, hafter⟩
      intro x hx
      obtain rfl | hx := List.mem_cons.mp hx
      · exact hlt
      · exact hbefore x hx
    · refine ⟨q, [], rest, by simp [firstHighest?, hp, hlt], rfl, by simp, ?_⟩
      intro x hx
      rw [hsplit] at hx
      obtain hx | hx := List.mem_append.mp hx
      · have := hbefore x hx
        omega
      obtain rfl | hx := List.mem_cons.mp hx
      · omega
      · have := hafter x hx
        omega

variable [DecidableEq α]

theorem outweighs_iff : outweighs xs a b = true ↔
    xs.count b < xs.count a ∨ xs.count a = xs.count b ∧ xs.idxOf a < xs.idxOf b := by
  simp [outweighs]

theorem outweighs_trans (hab : outweighs xs a b = true) (hbc : outweighs xs b c = true) :
    outweighs xs a c = true := by
  rw [outweighs_iff] at *
  omega

/-- A value of a list that no other outweighs. -/
structure Weightiest (xs : List α) (a : α) : Prop where
  mem : a ∈ xs
  top : ∀ b ∈ xs, ¬ outweighs xs b a = true

/-- There is only one: of two the same number of times, one comes first. -/
theorem Weightiest.unique (ha : Weightiest xs a) (hb : Weightiest xs b) : a = b := by
  have hab := hb.top a ha.mem
  have hba := ha.top b hb.mem
  rw [outweighs_iff] at hab hba
  apply (List.idxOf_inj ha.mem).mp
  omega

/-- Weighing goes on with the weightiest so far. -/
theorem consensus_fold (xs : List α) (best : α) (ys : List α) :
    ∃ a, ys.foldl (fun best a =>
        match best with
        | none => some a
        | some b => if outweighs xs a b then some a else some b) (some best) = some a ∧
      a ∈ best :: ys ∧ ∀ b ∈ best :: ys, ¬ outweighs xs b a = true := by
  induction ys generalizing best with
  | nil =>
    refine ⟨best, rfl, .head _, ?_⟩
    intro b hb
    obtain rfl := List.mem_singleton.mp hb
    rw [outweighs_iff]
    omega
  | cons y rest ih =>
    rw [List.foldl_cons]
    dsimp only
    split
    next hheavier =>
      obtain ⟨a, hfold, hmem, htop⟩ := ih y
      refine ⟨a, hfold, List.mem_cons_of_mem _ hmem, ?_⟩
      intro b hb
      obtain rfl | hb := List.mem_cons.mp hb
      · intro hb
        exact htop y (.head _) (outweighs_trans hheavier hb)
      · exact htop b hb
    next hlighter =>
      obtain ⟨a, hfold, hmem, htop⟩ := ih best
      refine ⟨a, hfold, ?_, ?_⟩
      · obtain rfl | hmem := List.mem_cons.mp hmem
        · exact .head _
        · exact .tail _ (.tail _ hmem)
      · intro b hb
        obtain rfl | hb := List.mem_cons.mp hb
        · exact htop b (.head _)
        obtain rfl | hb := List.mem_cons.mp hb
        · -- What does not outweigh the best so far does not outweigh what does.
          intro hb
          have := htop best (.head _)
          rw [outweighs_iff] at *
          omega
        · exact htop b (.tail _ hb)

theorem consensus_weightiest (h : xs ≠ []) : ∃ a, consensus? xs = some a ∧ Weightiest xs a := by
  cases xs with
  | nil => exact absurd rfl h
  | cons x rest =>
    obtain ⟨a, hfold, hmem, htop⟩ := consensus_fold (x :: rest) x rest
    exact ⟨a, hfold, hmem, htop⟩

theorem countUp_of_not_mem {cs : List (α × Nat)} (h : a ∉ cs.map (·.1)) :
    countUp a cs = cs ++ [(a, 1)] := by
  induction cs with
  | nil => rfl
  | cons p rest ih =>
    rw [List.map_cons, List.mem_cons, not_or] at h
    rw [countUp, if_neg (Ne.symm h.1), ih h.2, List.cons_append]

theorem countUp_keys {cs : List (α × Nat)} (h : a ∈ cs.map (·.1)) :
    (countUp a cs).map (·.1) = cs.map (·.1) := by
  induction cs with
  | nil => cases h
  | cons p rest ih =>
    rw [countUp]
    split
    · rfl
    next hne =>
      obtain rfl | h := List.mem_cons.mp h
      · exact absurd rfl hne
      · rw [List.map_cons, ih h, List.map_cons]

/-- Where each value stands once, only its own number changes. -/
theorem mem_countUp {cs : List (α × Nat)} (hkeys : (cs.map (·.1)).Nodup) (h : a ∈ cs.map (·.1))
    {p : α × Nat} (hp : p ∈ countUp a cs) :
    (∃ n, (a, n) ∈ cs ∧ p = (a, n + 1)) ∨ p.1 ≠ a ∧ p ∈ cs := by
  induction cs with
  | nil => cases h
  | cons q rest ih =>
    rw [List.map_cons, List.nodup_cons] at hkeys
    rw [countUp] at hp
    split at hp
    next heq =>
      subst heq
      obtain rfl | hp := List.mem_cons.mp hp
      · exact .inl ⟨q.2, .head _, rfl⟩
      · refine .inr ⟨?_, .tail _ hp⟩
        rintro heq
        exact hkeys.1 (heq ▸ List.mem_map_of_mem hp)
    next hne =>
      obtain rfl | hp := List.mem_cons.mp hp
      · exact .inr ⟨hne, .head _⟩
      · obtain heq | h := List.mem_cons.mp h
        · exact absurd heq.symm hne
        · obtain ⟨n, hn, rfl⟩ | ⟨hother, hp⟩ := ih hkeys.2 h hp
          · exact .inl ⟨n, .tail _ hn, rfl⟩
          · exact .inr ⟨hother, .tail _ hp⟩

/-- The values of a list with their numbers, in order of first appearance. -/
structure Tallied (xs : List α) (cs : List (α × Nat)) : Prop where
  keys : ∀ a, a ∈ cs.map (·.1) ↔ a ∈ xs
  numbers : ∀ p ∈ cs, p.2 = xs.count p.1
  order : (cs.map (·.1)).Pairwise fun a b => xs.idxOf a < xs.idxOf b

theorem Tallied.nodup {cs : List (α × Nat)} (h : Tallied xs cs) : (cs.map (·.1)).Nodup :=
  h.order.imp fun hlt heq => absurd (congrArg xs.idxOf heq) (Nat.ne_of_lt hlt)

theorem Tallied.snoc {cs : List (α × Nat)} (h : Tallied xs cs) (a : α) :
    Tallied (xs ++ [a]) (countUp a cs) := by
  have horder : (cs.map (·.1)).Pairwise fun b c => (xs ++ [a]).idxOf b < (xs ++ [a]).idxOf c := by
    refine h.order.imp_of_mem fun {b c} hb hc hlt => ?_
    rwa [List.idxOf_append_of_mem ((h.keys b).mp hb), List.idxOf_append_of_mem ((h.keys c).mp hc)]
  by_cases ha : a ∈ xs
  · have hkey := (h.keys a).mpr ha
    refine ⟨?_, ?_, ?_⟩
    · intro b
      rw [countUp_keys hkey, h.keys b, List.mem_append, List.mem_singleton]
      constructor
      · exact .inl
      · rintro (hb | rfl)
        · exact hb
        · exact ha
    · intro p hp
      rw [List.count_append]
      obtain ⟨n, hn, rfl⟩ | ⟨hother, hp⟩ := mem_countUp h.nodup hkey hp
      · have hnumber : n = xs.count a := h.numbers (a, n) hn
        simp [hnumber]
      · simp [h.numbers p hp, Ne.symm hother]
    · rw [countUp_keys hkey]
      exact horder
  · have hkey : a ∉ cs.map (·.1) := fun hmem => ha ((h.keys a).mp hmem)
    rw [countUp_of_not_mem hkey]
    refine ⟨?_, ?_, ?_⟩
    · intro b
      rw [List.map_append, List.mem_append, List.mem_append, h.keys b]
      rfl
    · intro p hp
      rw [List.count_append]
      obtain hp | hp := List.mem_append.mp hp
      · have hother : p.1 ≠ a := fun heq => hkey (heq ▸ List.mem_map_of_mem hp)
        simp [h.numbers p hp, Ne.symm hother]
      · obtain rfl := List.mem_singleton.mp hp
        simp [List.count_eq_zero_of_not_mem ha]
    · rw [List.map_append, List.pairwise_append]
      refine ⟨horder, List.pairwise_singleton _ _, ?_⟩
      intro b hb c hc
      obtain rfl : c = a := List.mem_singleton.mp hc
      have hmem := (h.keys b).mp hb
      rw [List.idxOf_append_of_mem hmem, List.idxOf_append_of_notMem ha]
      have := List.idxOf_lt_length_of_mem hmem
      omega

theorem counts_tallied (xs : List α) : Tallied xs (counts xs) := by
  induction xs using List.reverseRecOn with
  | nil => exact ⟨by simp [counts], by simp [counts], .nil⟩
  | append_singleton xs a ih =>
    rw [counts, List.foldl_append]
    exact ih.snoc a

theorem mostCommon_weightiest (h : xs ≠ []) : ∃ a, mostCommon? xs = some a ∧ Weightiest xs a := by
  have htallied := counts_tallied xs
  have hsome : counts xs ≠ [] := by
    intro hnil
    obtain ⟨a, ha⟩ := List.exists_mem_of_ne_nil xs h
    have := (htallied.keys a).mpr ha
    rw [hnil] at this
    cases this
  obtain ⟨p, before, after, hp, hsplit, hbefore, hafter⟩ := firstHighest_split hsome
  refine ⟨p.1, by rw [mostCommon?, hp]; rfl, ?_⟩
  have hnumber : p.2 = xs.count p.1 := htallied.numbers p (by simp [hsplit])
  refine ⟨(htallied.keys p.1).mp (by simp [hsplit]), ?_⟩
  intro b hb
  obtain ⟨q, hq, rfl⟩ := List.mem_map.mp ((htallied.keys b).mpr hb)
  have hcount := htallied.numbers q hq
  have horder := htallied.order
  rw [hsplit, List.map_append, List.map_cons, List.pairwise_append, List.pairwise_cons] at horder
  rw [outweighs_iff]
  rw [hsplit] at hq
  obtain hq | hq := List.mem_append.mp hq
  · have := hbefore q hq
    omega
  obtain rfl | hq := List.mem_cons.mp hq
  · omega
  · have hle := hafter q hq
    have hlt := horder.2.1.1 q.1 (List.mem_map_of_mem hq)
    omega

/-- Both ways of telling the most frequent value agree. -/
theorem consensus_eq_mostCommon (xs : List α) : consensus? xs = mostCommon? xs := by
  by_cases h : xs = []
  · subst h
    rfl
  · obtain ⟨a, ha, hweighed⟩ := consensus_weightiest h
    obtain ⟨b, hb, hcounted⟩ := mostCommon_weightiest h
    rw [ha, hb, hweighed.unique hcounted]

theorem Task.consensus_eq (t : Task) (field : Track → Option String) :
    t.consensus field = mostCommonText? t.tracks field := consensus_eq_mostCommon _

/-- A value that stands in a list at least as often as any other, and before those that stand in it as
often. -/
structure FirstMostFrequent (xs : List α) (a : α) : Prop where
  mem : a ∈ xs
  frequent : ∀ b ∈ xs, xs.count b ≤ xs.count a
  first : ∀ b ∈ xs, xs.count b = xs.count a → xs.idxOf a ≤ xs.idxOf b

theorem weightiest_iff : Weightiest xs a ↔ FirstMostFrequent xs a := by
  constructor
  · intro h
    refine ⟨h.mem, fun b hb => ?_, fun b hb hsame => ?_⟩
    all_goals
      have htop := h.top b hb
      rw [outweighs_iff] at htop
      omega
  · intro h
    refine ⟨h.mem, fun b hb => ?_⟩
    have hcount := h.frequent b hb
    have hfirst := h.first b hb
    rw [outweighs_iff]
    omega

theorem consensus_eq_some_iff : consensus? xs = some a ↔ FirstMostFrequent xs a := by
  rw [← weightiest_iff]
  constructor
  · intro h
    have hne : xs ≠ [] := by
      rintro rfl
      cases h
    obtain ⟨b, hb, hweighed⟩ := consensus_weightiest hne
    obtain rfl := Option.some.inj (h.symm.trans hb)
    exact hweighed
  · intro h
    obtain ⟨b, hb, hweighed⟩ := consensus_weightiest (List.ne_nil_of_mem h.mem)
    rw [hb, h.unique hweighed]

theorem consensus_eq_none_iff : consensus? xs = none ↔ xs = [] := by
  constructor
  · intro h
    by_contra hne
    obtain ⟨a, ha, -⟩ := consensus_weightiest hne
    rw [h] at ha
    cases ha
  · rintro rfl
    rfl

/-- The weightiest of the values of a list, which are gone through in any order. -/
def weighed (xs order : List α) : Option α :=
  order.foldl (fun best a =>
    match best with
    | none => some a
    | some b => if outweighs xs a b then some a else some b) none

/-- Only what is gone through matters, not in which order nor how often. -/
theorem weighed_eq_consensus {order : List α} (h : ∀ a, a ∈ order ↔ a ∈ xs) :
    weighed xs order = consensus? xs := by
  cases order with
  | nil =>
    have hnil : xs = [] := List.eq_nil_iff_forall_not_mem.mpr fun a ha => List.not_mem_nil ((h a).mpr ha)
    subst hnil
    rfl
  | cons b rest =>
    obtain ⟨a, hfold, hmem, htop⟩ := consensus_fold xs b rest
    have hweighed : Weightiest xs a := ⟨(h a).mp hmem, fun c hc => htop c ((h c).mpr hc)⟩
    exact hfold.trans (consensus_eq_some_iff.mpr (weightiest_iff.mp hweighed)).symm

/-- An album is looked up under the artist, the title and the release that its row is stored with: of the
values that its tracks carry, blanks around them dropped, the most frequent, and of equally frequent
ones the first. It does not matter in which order the counted values are gone through. -/
theorem Task.consensus_ofTracks (t : Task) :
    let album := LocalAlbum.ofTracks t.tracks
    album.artist = t.consensus (·.effectiveAlbumArtist) ∧ album.album = t.consensus (·.album) ∧
      album.albumId = t.consensus (·.albumId) ∧
      ∀ field : Track → Option String,
        let values := trimmedValues (t.tracks.filterMap field)
        (t.consensus field = none ↔ values = []) ∧
          (∀ a, t.consensus field = some a ↔ FirstMostFrequent values a) ∧
          ∀ order : List String, (∀ a, a ∈ order ↔ a ∈ values) → weighed values order = t.consensus field :=
  ⟨(t.consensus_eq _).symm, (t.consensus_eq _).symm, (t.consensus_eq _).symm, fun _ =>
    ⟨consensus_eq_none_iff, fun _ => consensus_eq_some_iff, fun _ h => weighed_eq_consensus h⟩⟩

/-- Two albums that are named twice each, the first one with blanks around it, beside one named once. -/
theorem Task.consensus_ofTracks_tie :
    let track (path album : String) : Track := { path := ⟨path⟩, album := some album }
    let t : Task := { key := "in", isAlbum := true, tracks :=
      [track "in/1.flac" "C", track "in/2.flac" " A", track "in/3.flac" "B", track "in/4.flac" " ",
        track "in/5.flac" "B", track "in/6.flac" "A "] }
    weighed ["C", "A", "B", "B", "A"] ["B", "C", "A"] = some "A" ∧
      (LocalAlbum.ofTracks t.tracks).album = some "A" := by
  intro track t
  have hvalues : trimmedValues (t.tracks.filterMap (·.album)) = ["C", "A", "B", "B", "A"] := by decide +kernel
  have hconsensus : t.consensus (·.album) = some "A" := by decide +kernel
  obtain ⟨-, halbum, -, hfield⟩ := t.consensus_ofTracks
  obtain ⟨-, -, hany⟩ := hfield (·.album)
  rw [hvalues] at hany
  refine ⟨?_, halbum.trans hconsensus⟩
  rw [← hconsensus]
  apply hany
  simp
  tauto

end MusicImport

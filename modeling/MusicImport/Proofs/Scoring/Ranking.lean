import Mathlib.Data.Prod.Lex
import Mathlib.Order.WithBot
import MusicImport.Proofs.Scoring.Bounds
import MusicImport.Proofs.Scoring.Contributions
import MusicImport.Proofs.Sorting
import MusicImport.Scoring.Match

/-! The order of scored candidates. Comparing two of them is comparing their keys in a linear order, so ranking is
sorting by keys: it loses and adds nothing, and what has equal keys keeps the order in which it came. -/
namespace MusicImport

namespace Distance

section
variable {α : Type} [Scalar α] {d : Distance α}

/-- Nothing but contributions has gone into a distance. -/
def Built (d : Distance α) : Prop := ∃ cs, d = ofContributions cs

theorem Built.contribute (h : d.Built) (c : Contribution α) : (d.contribute c).Built := by
  obtain ⟨cs, rfl⟩ := h
  refine ⟨cs ++ [c], ?_⟩
  unfold ofContributions
  rw [List.foldl_append]
  rfl

theorem Built.addSome (h : d.Built) (field : DistanceField) (weight : α) (x : Option α) :
    (d.addSome field weight x).Built := by
  cases x with
  | none => exact h
  | some fraction => exact h.contribute (.fraction field weight fraction)

theorem Built.addFields (h : d.Built) (fs : List (FieldFraction α)) : (fs.foldl addField d).Built := by
  induction fs generalizing d with
  | nil => exact h
  | cons f fs ih => exact ih (h.addSome f.field f.weight f.fraction)

theorem built_empty : (empty : Distance α).Built := ⟨[], rfl⟩

theorem built_albumDistance (w : DistanceWeights α) (tracks : List Track) (c : AlbumCandidate) :
    (albumDistance w tracks c).1.Built := by
  have hfields := (built_empty (α := α)).addFields (albumFields w (LocalAlbum.ofTracks tracks) c)
  rw [← albumFieldsDistance_eq] at hfields
  exact hfields.contribute (.penalty .tracks (alignTracks w tracks c).cost
    (tracksBound w tracks.length c.tracks.length))

theorem built_itemDistance (w : DistanceWeights α) (t : Track) (c : TrackCandidate) : (itemDistance w t c).Built := by
  have htitle := (built_empty (α := α)).contribute
    (.fraction .title w.trackTitle (textDistance t.displayTitle c.title))
  exact ((htitle.addSome .artist _ _).addSome .length _ _).addSome .trackId _ _

end

theorem Built.plus_normalized {d : Distance Float} (h : d.Built) :
    Scoring.Plus d.normalized.toModel.unpack := by
  obtain ⟨cs, rfl⟩ := h
  exact Scoring.plus_normalized (plus_ofContributions cs).1 (plus_ofContributions cs).2

/-- The place of a normalized distance in the order of all doubles. -/
def rank (d : Distance Float) : ℤ := Scalar.bitsRank d.normalized.toBits.toNat

theorem compare_eq_rank (d e : Distance Float) : d.compare e = Ord.compare d.rank e.rank := rfl

/-- Distances of contributions are sorted by their values. -/
theorem Built.lt_iff_rank {d e : Distance Float} (hd : d.Built) (he : e.Built) :
    d.normalized < e.normalized ↔ d.rank < e.rank := by
  have horder := Scoring.order_plus hd.plus_normalized he.plus_normalized
  rw [Scoring.lt_iff_place (.inl hd.plus_normalized) (.inl he.plus_normalized), ← Nat.compare_eq_lt, ← horder,
    ← Int.compare_eq_lt]
  rfl

/-- No two doubles have the same place. -/
theorem rank_inj {d e : Distance Float} : d.rank = e.rank ↔ d.normalized = e.normalized := by
  refine ⟨fun h => ?_, fun h => by rw [rank, h, rank]⟩
  have hbits : d.normalized.toBits.toNat = e.normalized.toBits.toNat := by
    unfold rank Scalar.bitsRank signed64 at h
    split at h <;> split at h <;> omega
  have hword : d.normalized.toModel.toBits = e.normalized.toModel.toBits := UInt64.toNat_inj.mp hbits
  have hmodel {a b : Float.Model} (h : a.toBits = b.toBits) : a = b := by
    cases a
    cases b
    congr
  exact congrArg Float.ofModel (hmodel hword)

end Distance

/-- The place of a year: newer ones first, unknown ones last. -/
def yearKey : Option ℤ → WithTop ℤᵒᵈ
  | some year => .some (OrderDual.toDual year)
  | none => ⊤

namespace Match

variable {a b : Match Float}

/-- What a match is sorted by. -/
def key (m : Match Float) : ℤ ×ₗ ℕ ×ₗ WithTop ℤᵒᵈ :=
  toLex (m.distance.rank, toLex (m.candidate.priority, yearKey m.candidate.year))

theorem yearKey_inj {x y : Option ℤ} : yearKey x = yearKey y ↔ x = y := by
  cases x <;> cases y <;> simp [yearKey]

theorem newerFirst_iff (x y : Option ℤ) : newerFirst x y ≠ .gt ↔ yearKey x ≤ yearKey y := by
  cases x <;> cases y <;> simp [newerFirst, yearKey, Int.compare_eq_gt]

/-- To compare matches is to compare their keys. -/
theorem compare_iff (a b : Match Float) : a.compare b ≠ .gt ↔ a.key ≤ b.key := by
  unfold compare key
  rw [Ordering.then_assoc, Sorting.then_ne_gt, Sorting.then_ne_gt, newerFirst_iff, Prod.Lex.toLex_le_toLex,
    Prod.Lex.toLex_le_toLex, Distance.compare_eq_rank, Int.compare_eq_lt, Int.compare_eq_eq, Nat.compare_eq_lt,
    Nat.compare_eq_eq]

theorem rank_eq (ms : List (Match Float)) : rank ms = ms.mergeSort fun a b => decide (a.key ≤ b.key) := by
  have hle : (fun a b : Match Float => a.compare b != .gt) = fun a b => decide (a.key ≤ b.key) := by
    funext a b
    rw [Bool.eq_iff_iff, bne_iff_ne, decide_eq_true_iff, compare_iff]
  rw [rank, hle]

/-- Years that go before others: newer ones, and known ones before unknown ones. -/
def NewerThan : Option ℤ → Option ℤ → Prop
  | some x, some y => y < x
  | some _, none => True
  | none, _ => False

/-- A match goes before another by its distance, among equal distances by the priority of its source, and among equal
priorities by its year. -/
def GoesBefore (a b : Match Float) : Prop :=
  a.distance.normalized < b.distance.normalized ∨
    a.distance.normalized = b.distance.normalized ∧
      (a.candidate.priority < b.candidate.priority ∨
        a.candidate.priority = b.candidate.priority ∧ NewerThan a.candidate.year b.candidate.year)

/-- Nothing that matches are sorted by tells two of them apart. -/
structure Tied (a b : Match Float) : Prop where
  distance : a.distance.normalized = b.distance.normalized
  priority : a.candidate.priority = b.candidate.priority
  year : a.candidate.year = b.candidate.year

theorem tied_iff (a b : Match Float) : a.Tied b ↔ a.key = b.key := by
  unfold key
  rw [toLex_inj, Prod.mk.injEq, toLex_inj, Prod.mk.injEq, Distance.rank_inj, yearKey_inj]
  exact ⟨fun ⟨hd, hp, hy⟩ => ⟨hd, hp, hy⟩, fun ⟨hd, hp, hy⟩ => ⟨hd, hp, hy⟩⟩

instance (a b : Match Float) : Decidable (a.Tied b) := decidable_of_iff _ (tied_iff a b).symm

theorem newerThan_iff (x y : Option ℤ) : NewerThan x y ↔ yearKey x < yearKey y := by
  cases x <;> cases y <;> simp [NewerThan, yearKey]

/-- Distances of contributions make keys as they are ordered themselves. -/
theorem goesBefore_iff (ha : a.distance.Built) (hb : b.distance.Built) : a.GoesBefore b ↔ a.key < b.key := by
  unfold GoesBefore key
  rw [Prod.Lex.toLex_lt_toLex, Prod.Lex.toLex_lt_toLex, ha.lt_iff_rank hb, Distance.rank_inj, newerThan_iff]

/-- A ranking of matches: none is lost or added, none stands behind one that it goes before, and those that are tied
stand as they came. -/
structure IsRanking (ms ranked : List (Match Float)) : Prop where
  perm : ranked.Perm ms
  sorted : ranked.Pairwise fun a b => ¬ b.GoesBefore a
  stable : ∀ m, (ranked.filter fun a => a.Tied m) = ms.filter fun a => a.Tied m

theorem rank_perm (ms : List (Match Float)) : (rank ms).Perm ms := List.mergeSort_perm _ _

theorem rank_keys (ms : List (Match Float)) : (rank ms).Pairwise fun a b => a.key ≤ b.key := by
  rw [rank_eq]
  exact Sorting.pairwise_mergeSort key ms

/-- What is tied has one key. -/
theorem rank_stable (ms : List (Match Float)) (m : Match Float) :
    ((rank ms).filter fun a => a.Tied m) = ms.filter fun a => a.Tied m := by
  have htied : (fun a : Match Float => decide (a.Tied m)) = fun a => decide (a.key = m.key) := by
    funext a
    exact decide_eq_decide.mpr (tied_iff a m)
  rw [htied, rank_eq]
  exact Sorting.filter_mergeSort key ms m.key

theorem rank_isRanking {ms : List (Match Float)} (h : ∀ m ∈ ms, m.distance.Built) : IsRanking ms (rank ms) where
  perm := rank_perm ms
  sorted := by
    refine (rank_keys ms).imp_of_mem fun {a b} ha hb hle => ?_
    rw [goesBefore_iff (h b ((rank_perm ms).subset hb)) (h a ((rank_perm ms).subset ha))]
    exact hle.not_gt
  stable := rank_stable ms

/-- The order in which matches come decides only about those that are tied. -/
theorem rank_of_perm {ms ms' : List (Match Float)} (h : ms.Perm ms') : List.Forall₂ Tied (rank ms) (rank ms') := by
  have hkeys (ms : List (Match Float)) : ((rank ms).map key).Pairwise (· ≤ ·) :=
    List.pairwise_map.mpr (rank_keys ms)
  have hperm : ((rank ms).map key).Perm ((rank ms').map key) :=
    (((rank_perm ms).trans h).trans (rank_perm ms').symm).map key
  have heq := hperm.eq_of_pairwise (fun a b _ _ => le_antisymm) (hkeys ms) (hkeys ms')
  rw [← List.forall₂_eq_eq_eq, List.forall₂_map_left_iff, List.forall₂_map_right_iff] at heq
  exact heq.imp fun a b => (tied_iff a b).mpr

end Match

/-- Whether a candidate can be compared with tracks: albums with a group of them, recordings with a single file. -/
def Candidate.suits (isAlbum : Bool) (tracks : List Track) : Candidate → Bool
  | .album _ => isAlbum
  | .track _ => !isAlbum && !tracks.isEmpty

namespace Match

variable {w : DistanceWeights Float} {isAlbum : Bool} {tracks : List Track}

theorem built_of_score {c : Candidate} {m : Match Float} (h : score? w isAlbum tracks c = some m) :
    m.distance.Built := by
  cases c with
  | album c =>
    simp only [score?] at h
    split at h
    · cases h
      exact Distance.built_albumDistance w tracks c
    · cases h
  | track c =>
    simp only [score?] at h
    split at h
    · cases h
    · obtain ⟨t, -, rfl⟩ := Option.map_eq_some_iff.mp h
      exact Distance.built_itemDistance w t c

theorem score_candidate (w : DistanceWeights Float) (isAlbum : Bool) (tracks : List Track) (c : Candidate) :
    (score? w isAlbum tracks c).map (·.candidate) = if c.suits isAlbum tracks then some c else none := by
  cases c <;> cases isAlbum <;> cases tracks <;> rfl

theorem scored_candidates (w : DistanceWeights Float) (isAlbum : Bool) (tracks : List Track)
    (candidates : List Candidate) :
    (candidates.filterMap (score? w isAlbum tracks)).map (·.candidate) = candidates.filter (·.suits isAlbum tracks) := by
  rw [List.map_filterMap, ← List.filterMap_eq_filter]
  refine List.filterMap_congr fun c _ => ?_
  rw [score_candidate, Option.guard]

/-- Every candidate of the kind asked for is ranked by its distance, then the priority of its source, then its year,
and what is tied stays in the order in which it came. Another order of the candidates gives a ranking of the same
matches that has tied ones in the same places. -/
theorem scoreAndRank_ranks (w : DistanceWeights Float) (isAlbum : Bool) (tracks : List Track)
    (candidates : List Candidate) :
    IsRanking (candidates.filterMap (score? w isAlbum tracks)) (scoreAndRank w isAlbum tracks candidates) ∧
      ((scoreAndRank w isAlbum tracks candidates).map (·.candidate)).Perm
        (candidates.filter (·.suits isAlbum tracks)) ∧
      ∀ candidates', candidates.Perm candidates' →
        (scoreAndRank w isAlbum tracks candidates).Perm (scoreAndRank w isAlbum tracks candidates') ∧
          List.Forall₂ Tied (scoreAndRank w isAlbum tracks candidates) (scoreAndRank w isAlbum tracks candidates') := by
  have hranking : IsRanking (candidates.filterMap (score? w isAlbum tracks))
      (scoreAndRank w isAlbum tracks candidates) := by
    refine rank_isRanking fun m hm => ?_
    obtain ⟨c, -, hc⟩ := List.mem_filterMap.mp hm
    exact built_of_score hc
  refine ⟨hranking, ?_, fun candidates' h => ?_⟩
  · rw [← scored_candidates]
    exact hranking.perm.map _
  · have hscored := h.filterMap (score? w isAlbum tracks)
    exact ⟨(rank_perm _).trans (hscored.trans (rank_perm _).symm), rank_of_perm hscored⟩

/-- Two albums without a year, and one that is dated. -/
def undatedAlbums : List Candidate :=
  [.album { id := "first", artist := "A", album := "X", tracks := [] },
   .album { id := "second", artist := "A", album := "X", tracks := [] },
   .album { id := "dated", artist := "A", album := "X", tracks := [], year := some 2020 }]

theorem scoreAndRank_ranks_reverse : undatedAlbums.Perm undatedAlbums.reverse ∧
    List.Forall₂ Tied (scoreAndRank .standard true [] undatedAlbums)
      (scoreAndRank .standard true [] undatedAlbums.reverse) := by
  have hperm : undatedAlbums.Perm undatedAlbums.reverse := by decide
  exact ⟨hperm, ((scoreAndRank_ranks .standard true [] undatedAlbums).2.2 _ hperm).2⟩

end Match
end MusicImport

import MusicImport.Proofs.Grouping.DiscSets

/-! Albums of directories. Every set of discs owns its discs and the loose files that it claims, no
directory is owned twice, and the first directory of a set emits its album. So the albums hold the files
of every directory once. -/
namespace MusicImport

open FilePath DiscSet

variable {root : FilePath} {files : List FilePath} {dirs : List AudioDirectory}
  {sets done : List DiscSet} {claimed : List ClaimedSet} {c : ClaimedSet} {dir p : FilePath}

namespace ClaimedSet

/-- The directories of a set in the order of its files: loose files first, then the discs. -/
def paths (c : ClaimedSet) : List FilePath := c.loose.toList ++ c.discs.members.map (·.path)

/-- A directory among those of the set. -/
def Owns (c : ClaimedSet) (dir : FilePath) : Prop := ∃ p ∈ c.paths, p.same dir

theorem owns_iff : c.Owns dir ↔ (c.discs.has dir || c.loose.any (·.same dir)) := by
  unfold Owns paths DiscSet.has
  cases c.loose <;> simp [or_comm]

theorem owns_of_has (h : c.discs.has dir) : c.Owns dir := owns_iff.mpr (by simp [h])

theorem owns_of_loose (hp : p ∈ c.loose) (h : p.same dir) : c.Owns dir :=
  ⟨p, List.mem_append_left _ (Option.mem_toList.mpr hp), h⟩

theorem Owns.of_same (h : c.Owns dir) (hsame : dir.same p) : c.Owns p := by
  obtain ⟨q, hq, hqdir⟩ := h
  exact ⟨q, hq, same_trans hqdir hsame⟩

end ClaimedSet

/-- What the sets up to some point have claimed. -/
structure Claims (dirs : List AudioDirectory) (sets done : List DiscSet) (claimed : List ClaimedSet) :
    Prop where
  discs : claimed.map (·.discs) = done
  loose : ∀ c ∈ claimed, ∀ p ∈ c.loose,
    p = c.discs.keyPath ∧ (∃ d ∈ dirs, d.path.same p) ∧ ∀ s ∈ sets, ¬ s.has p
  apart : claimed.Pairwise fun a b => ∀ p ∈ a.loose, ∀ q ∈ b.loose, ¬ p.same q
  all : ∀ s ∈ done, (∃ d ∈ dirs, d.path.same s.keyPath) → (∀ t ∈ sets, ¬ t.has s.keyPath) →
    ∃ c ∈ claimed, ∃ p ∈ c.loose, p.same s.keyPath

/-- One more set claims the directory with its key, or nothing if that one is not free. -/
theorem Claims.snoc (h : Claims dirs sets done claimed) {s : DiscSet} {loose : Option FilePath}
    (hloose : ∀ p ∈ loose, p = s.keyPath ∧ (∃ d ∈ dirs, d.path.same p) ∧ (∀ t ∈ sets, ¬ t.has p) ∧
      ∀ c ∈ claimed, ∀ q ∈ c.loose, ¬ q.same p)
    (hall : (∃ d ∈ dirs, d.path.same s.keyPath) → (∀ t ∈ sets, ¬ t.has s.keyPath) →
      loose = some s.keyPath ∨ ∃ c ∈ claimed, ∃ p ∈ c.loose, p.same s.keyPath) :
    Claims dirs sets (done ++ [s]) (claimed ++ [⟨s, loose⟩]) where
  discs := by simp [h.discs]
  loose c hc p hp := by
    obtain hc | hc := List.mem_append.mp hc
    · exact h.loose c hc p hp
    · obtain rfl := List.mem_singleton.mp hc
      obtain ⟨hkey, hdir, hnodisc, -⟩ := hloose p hp
      exact ⟨hkey, hdir, hnodisc⟩
  apart := by
    rw [List.pairwise_append]
    refine ⟨h.apart, List.pairwise_singleton _ _, fun a ha b hb p hp q hq => ?_⟩
    obtain rfl := List.mem_singleton.mp hb
    obtain ⟨-, -, -, hfree⟩ := hloose q hq
    exact hfree a ha p hp
  all x hx hdir hnodisc := by
    have hearlier : (∃ c ∈ claimed, ∃ p ∈ c.loose, p.same x.keyPath) →
        ∃ c ∈ claimed ++ [⟨s, loose⟩], ∃ p ∈ c.loose, p.same x.keyPath := by
      rintro ⟨c, hc, hp⟩
      exact ⟨c, List.mem_append_left _ hc, hp⟩
    obtain hx | hx := List.mem_append.mp hx
    · exact hearlier (h.all x hx hdir hnodisc)
    · obtain rfl := List.mem_singleton.mp hx
      obtain rfl | hclaimed := hall hdir hnodisc
      · exact ⟨_, List.mem_append_right _ (.head _), x.keyPath, rfl, same_refl _⟩
      · exact hearlier hclaimed

theorem Claims.add (h : Claims dirs sets done claimed) (s : DiscSet) :
    Claims dirs sets (done ++ [s]) (claimed ++ [⟨s,
      if dirs.any (·.path.same s.keyPath) && !sets.any (·.has s.keyPath) &&
        !claimed.any fun c => c.loose.any (·.same s.keyPath) then some s.keyPath else none⟩]) := by
  split
  next hfree =>
    simp only [Bool.and_eq_true, Bool.not_eq_true', List.any_eq_true, List.any_eq_false] at hfree
    obtain ⟨⟨hdir, hnodisc⟩, hunclaimed⟩ := hfree
    refine h.snoc (fun p hp => ?_) fun _ _ => .inl rfl
    obtain rfl : s.keyPath = p := by simpa using hp
    refine ⟨rfl, hdir, hnodisc, fun c hc q hq hsame => hunclaimed c hc ?_⟩
    rw [Option.mem_def] at hq
    simpa [hq] using hsame
  next hnot =>
    refine h.snoc (by simp) fun hdir hnodisc => .inr ?_
    -- the directory is there and no disc, so an earlier set has claimed it
    obtain ⟨c, hc, hany⟩ : ∃ c ∈ claimed, c.loose.any (·.same s.keyPath) := by
      have hd : dirs.any (·.path.same s.keyPath) := List.any_eq_true.mpr hdir
      have hn : sets.any (·.has s.keyPath) = false :=
        List.any_eq_false.mpr fun t ht => by simpa using hnodisc t ht
      simpa [hd, hn] using hnot
    refine ⟨c, hc, ?_⟩
    cases hl : c.loose with
    | none => simp [hl] at hany
    | some p => exact ⟨p, rfl, by simpa [hl] using hany⟩

theorem claims_claimLoose (dirs : List AudioDirectory) (sets : List DiscSet) :
    Claims dirs sets sets (claimLoose dirs sets) := by
  have hfold : ∀ todo done claimed, Claims dirs sets done claimed →
      Claims dirs sets (done ++ todo) (todo.foldl (fun claimed s =>
        let key := s.keyPath
        let free := dirs.any (·.path.same key) && !sets.any (·.has key) &&
          !claimed.any fun c => c.loose.any (·.same key)
        claimed ++ [⟨s, if free then some key else none⟩]) claimed) := by
    intro todo
    induction todo with
    | nil => intro done claimed h; simpa using h
    | cons s todo ih =>
      intro done claimed h
      have hstep := ih (done ++ [s]) _ (h.add s)
      rwa [List.append_assoc, List.singleton_append] at hstep
  have hempty : Claims dirs sets [] [] := ⟨rfl, by simp, .nil, by simp⟩
  exact hfold sets [] [] hempty

namespace Claims

theorem discs_mem (h : Claims dirs sets sets claimed) (hc : c ∈ claimed) : c.discs ∈ sets := by
  rw [← h.discs]
  exact List.mem_map_of_mem hc

theorem discs_getElem? (h : Claims dirs sets sets claimed) {i : Nat} (hc : claimed[i]? = some c) :
    sets[i]? = some c.discs := by
  rw [← h.discs, List.getElem?_map, hc, Option.map_some]

theorem exists_discs (h : Claims dirs sets sets claimed) {s : DiscSet} (hs : s ∈ sets) :
    ∃ c ∈ claimed, c.discs = s := by
  rw [← h.discs] at hs
  exact List.mem_map.mp hs

end Claims

/-- A directory is owned by one set only, and by it once. -/
theorem Claims.paths_apart (h : Claims dirs sets sets claimed) (hsets : Among dirs sets) :
    (claimed.flatMap ClaimedSet.paths).Pairwise fun p q => ¬ p.same q := by
  have honce := hsets.once
  rw [List.map_flatMap, ← h.discs, List.flatMap_map, List.pairwise_flatMap] at honce
  obtain ⟨hinside, houtside⟩ := honce
  -- loose files lie in no disc
  have hloose : ∀ a ∈ claimed, ∀ b ∈ claimed, ∀ p ∈ a.loose,
      ∀ q ∈ b.discs.members.map (·.path), ¬ q.same p := by
    intro a ha b hb p hp q hq hsame
    obtain ⟨-, -, hnodisc⟩ := h.loose a ha p hp
    obtain ⟨m, hm, rfl⟩ := List.mem_map.mp hq
    exact hnodisc b.discs (h.discs_mem hb) (List.any_eq_true.mpr ⟨m, hm, hsame⟩)
  rw [List.pairwise_flatMap]
  refine ⟨fun c hc => ?_, ?_⟩
  · unfold ClaimedSet.paths
    rw [List.pairwise_append]
    refine ⟨?_, hinside c hc, fun p hp q hq hsame => ?_⟩
    · cases c.loose <;> simp
    · exact hloose c hc c hc p (Option.mem_toList.mp hp) q hq (same_comm.mp hsame)
  · refine (houtside.and h.apart).imp_of_mem fun {a b} ha hb hab p hp q hq hsame => ?_
    obtain hp | hp := List.mem_append.mp hp
    · obtain hq | hq := List.mem_append.mp hq
      · exact hab.2 p (Option.mem_toList.mp hp) q (Option.mem_toList.mp hq) hsame
      · exact hloose a ha b hb p (Option.mem_toList.mp hp) q hq (same_comm.mp hsame)
    · obtain hq | hq := List.mem_append.mp hq
      · exact hloose b hb a ha q (Option.mem_toList.mp hq) p hp hsame
      · exact hab.1 p hp q hq hsame

theorem setOf?_eq_none : setOf? claimed dir = none ↔ ∀ c ∈ claimed, ¬ c.Owns dir := by
  unfold setOf?
  rw [List.findIdx?_eq_none_iff]
  refine forall₂_congr fun c _ => ?_
  rw [ClaimedSet.owns_iff, Bool.not_eq_true]

theorem owns_of_setOf? {i : Nat} (h : setOf? claimed dir = some i) :
    ∃ c, claimed[i]? = some c ∧ c.Owns dir := by
  unfold setOf? at h
  obtain ⟨hi, howns, -⟩ := List.findIdx?_eq_some_iff_getElem.mp h
  exact ⟨claimed[i], by simp, ClaimedSet.owns_iff.mpr howns⟩

/-- Of two sets that own one directory, one is the other. -/
theorem index_unique (hapart : (claimed.flatMap ClaimedSet.paths).Pairwise fun p q => ¬ p.same q)
    {i j : Nat} {a b : ClaimedSet} (ha : claimed[i]? = some a) (hb : claimed[j]? = some b)
    (hao : a.Owns dir) (hbo : b.Owns dir) : i = j := by
  obtain ⟨p, hp, hpd⟩ := hao
  obtain ⟨q, hq, hqd⟩ := hbo
  have hpairs : claimed.Pairwise fun a b => ¬ ∃ p ∈ a.paths, ∃ q ∈ b.paths, p.same q := by
    refine (List.pairwise_flatMap.mp hapart).2.imp fun hab => ?_
    rintro ⟨p, hp, q, hq, hsame⟩
    exact hab p hp q hq hsame
  refine index_eq_of_pairwise ?_ hpairs ha hb ⟨p, hp, q, hq, same_trans hpd (same_comm.mp hqd)⟩
  rintro _ _ ⟨p, hp, q, hq, hsame⟩
  exact ⟨q, hq, p, hp, same_comm.mp hsame⟩

theorem setOf?_eq_some (hapart : (claimed.flatMap ClaimedSet.paths).Pairwise fun p q => ¬ p.same q)
    {i : Nat} (hc : claimed[i]? = some c) (howns : c.Owns dir) : setOf? claimed dir = some i := by
  cases hset : setOf? claimed dir with
  | none => exact absurd howns (setOf?_eq_none.mp hset c (List.mem_of_getElem? hc))
  | some j =>
    obtain ⟨b, hb, hbo⟩ := owns_of_setOf? hset
    rw [index_unique hapart hc hb howns hbo]

/-- The directories at which an album is emitted: those that no set owns, and the first of every set
that was not emitted before. -/
def leaders (claimed : List ClaimedSet) : (emitted : List Nat) → List AudioDirectory → List AudioDirectory
  | _, [] => []
  | emitted, d :: rest =>
    match setOf? claimed d.path with
    | none => d :: leaders claimed emitted rest
    | some i =>
      if emitted.contains i then leaders claimed emitted rest
      else d :: leaders claimed (i :: emitted) rest

/-- The album that a leader emits. -/
def albumOf (dirs : List AudioDirectory) (claimed : List ClaimedSet) (d : AudioDirectory) : GroupPlan :=
  match (setOf? claimed d.path).bind (claimed[·]?) with
  | none => ⟨d.path.text, d.files, true⟩
  | some c => c.plan dirs

/-- The directories of the album that a leader emits. -/
def blockOf (claimed : List ClaimedSet) (d : AudioDirectory) : List FilePath :=
  match (setOf? claimed d.path).bind (claimed[·]?) with
  | none => [d.path]
  | some c => c.paths

theorem emitAlbums_eq (emitted : List Nat) (rest : List AudioDirectory) :
    emitAlbums dirs claimed emitted rest = (leaders claimed emitted rest).map (albumOf dirs claimed) := by
  induction rest generalizing emitted with
  | nil => rfl
  | cons d rest ih =>
    rw [emitAlbums, leaders]
    cases hset : setOf? claimed d.path with
    | none => simp [albumOf, hset, ih]
    | some i =>
      obtain ⟨c, hc, -⟩ := owns_of_setOf? hset
      by_cases hemitted : emitted.contains i
      · simp only [hemitted, if_true, ih]
      · have hnew : i ∉ emitted := by simpa using hemitted
        simp [hnew, hc, albumOf, hset, ih]

theorem leaders_sublist (emitted : List Nat) (rest : List AudioDirectory) :
    (leaders claimed emitted rest).Sublist rest := by
  induction rest generalizing emitted with
  | nil => exact .slnil
  | cons d rest ih =>
    rw [leaders]
    split
    · exact (ih _).cons_cons d
    · split
      · exact (ih _).cons d
      · exact (ih _).cons_cons d

/-- A set is emitted at one of its directories, and not if it was emitted before. -/
theorem leaders_apart (emitted : List Nat) (rest : List AudioDirectory) :
    ((leaders claimed emitted rest).Pairwise fun a b =>
      ∀ i, setOf? claimed a.path = some i → setOf? claimed b.path ≠ some i) ∧
    ∀ d ∈ leaders claimed emitted rest, ∀ i ∈ emitted, setOf? claimed d.path ≠ some i := by
  induction rest generalizing emitted with
  | nil => exact ⟨.nil, by simp [leaders]⟩
  | cons d rest ih =>
    rw [leaders]
    split
    next hset =>
      obtain ⟨hpairs, hnew⟩ := ih emitted
      refine ⟨List.pairwise_cons.mpr ⟨by simp [hset], hpairs⟩, fun e he i hi => ?_⟩
      obtain rfl | he := List.mem_cons.mp he
      · simp [hset]
      · exact hnew e he i hi
    next j hset =>
      split
      · exact ih emitted
      next hemitted =>
        obtain ⟨hpairs, hnew⟩ := ih (j :: emitted)
        refine ⟨List.pairwise_cons.mpr ⟨fun e he i hi => ?_, hpairs⟩, fun e he i hi => ?_⟩
        · obtain rfl : j = i := by simpa [hset] using hi
          exact hnew e he j (.head _)
        · obtain rfl | he := List.mem_cons.mp he
          · rintro hsome
            obtain rfl : j = i := by simpa [hset] using hsome
            exact hemitted (List.contains_iff_mem.mpr hi)
          · exact hnew e he i (.tail _ hi)

/-- Every directory that no set owns leads. -/
theorem mem_leaders_of_none {d : AudioDirectory} {rest : List AudioDirectory} (hd : d ∈ rest)
    (hset : setOf? claimed d.path = none) (emitted : List Nat) : d ∈ leaders claimed emitted rest := by
  induction rest generalizing emitted with
  | nil => cases hd
  | cons e rest ih =>
    rw [leaders]
    obtain rfl | hd := List.mem_cons.mp hd
    · simp [hset]
    · split
      · exact .tail _ (ih hd _)
      · split
        · exact ih hd _
        · exact .tail _ (ih hd _)

/-- Every other directory has a leader of its set, which is the directory or stands before it. -/
theorem exists_leader {d : AudioDirectory} {rest : List AudioDirectory} {i : Nat} (hd : d ∈ rest)
    (hset : setOf? claimed d.path = some i) {emitted : List Nat} (hi : i ∉ emitted)
    {R : AudioDirectory → AudioDirectory → Prop} (hR : rest.Pairwise R) :
    ∃ e ∈ leaders claimed emitted rest, setOf? claimed e.path = some i ∧ (e = d ∨ R e d) := by
  induction rest generalizing emitted with
  | nil => cases hd
  | cons x rest ih =>
    obtain ⟨hfirst, hrest⟩ := List.pairwise_cons.mp hR
    rw [leaders]
    obtain rfl | hd := List.mem_cons.mp hd
    · simp only [hset]
      rw [if_neg (by simpa using hi)]
      exact ⟨d, .head _, hset, .inl rfl⟩
    · split
      next hx =>
        obtain ⟨e, he, hei⟩ := ih hd hi hrest
        exact ⟨e, .tail _ he, hei⟩
      next j hx =>
        split
        · exact ih hd hi hrest
        next hemitted =>
          by_cases hij : i = j
          · exact ⟨x, .head _, by rw [hx, hij], .inr (hfirst d hd)⟩
          · have hnew : i ∉ j :: emitted := by simp [hij, hi]
            obtain ⟨e, he, hei⟩ := ih hd hnew hrest
            exact ⟨e, .tail _ he, hei⟩

/-- Every directory has its album among those that are emitted, and there are no others. -/
theorem mem_emitAlbums_iff {p : GroupPlan} :
    p ∈ emitAlbums dirs claimed [] dirs ↔ ∃ d ∈ dirs, albumOf dirs claimed d = p := by
  rw [emitAlbums_eq, List.mem_map]
  constructor
  · rintro ⟨d, hd, rfl⟩
    exact ⟨d, (leaders_sublist [] dirs).subset hd, rfl⟩
  · rintro ⟨d, hd, rfl⟩
    cases hset : setOf? claimed d.path with
    | none => exact ⟨d, mem_leaders_of_none hd hset [], rfl⟩
    | some i =>
      have hall : dirs.Pairwise fun _ _ => True := List.pairwise_of_forall (by simp)
      obtain ⟨e, he, hei, -⟩ := exists_leader hd hset List.not_mem_nil hall
      obtain ⟨c, hc, -⟩ := owns_of_setOf? hset
      have halbum : ∀ x : AudioDirectory, setOf? claimed x.path = some i →
          albumOf dirs claimed x = c.plan dirs := by
        intro x hx
        simp [albumOf, hx, hc]
      exact ⟨e, he, (halbum e hei).trans (halbum d hset).symm⟩

end MusicImport

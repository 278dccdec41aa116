import Mathlib.Data.List.Pairwise
import MusicImport.Proofs.Grouping.Albums

/-! Albums as a partition of the files of a walk: every file is in one album and there once, and the
albums stand in the order in which the first of their directories was seen. -/
namespace MusicImport

open FilePath DiscSet

variable {root : FilePath} {files : List FilePath} {dirs : List AudioDirectory}
  {sets : List DiscSet} {claimed : List ClaimedSet} {d : AudioDirectory}

theorem files_plan (hfiled : Filed root files dirs) (c : ClaimedSet) :
    (c.plan dirs).files = c.paths.flatMap (filesIn root files) := by
  have hfiles : filesOf dirs = filesIn root files := funext hfiled.filesOf_eq
  unfold ClaimedSet.plan ClaimedSet.paths
  rw [hfiles, List.flatMap_append, List.flatMap_map]
  cases c.loose <;> simp

theorem files_albumOf (hfiled : Filed root files dirs) (hd : d ∈ dirs) :
    (albumOf dirs claimed d).files = (blockOf claimed d).flatMap (filesIn root files) := by
  unfold albumOf blockOf
  split
  · simp [hfiled.files_eq d hd]
  · exact files_plan hfiled _

/-- A directory without a set stands alone; another one stands with the directories of its set. -/
theorem blockOf_cases (claimed : List ClaimedSet) (d : AudioDirectory) :
    (setOf? claimed d.path = none ∧ blockOf claimed d = [d.path]) ∨
    ∃ i c, setOf? claimed d.path = some i ∧ claimed[i]? = some c ∧ c.Owns d.path ∧
      blockOf claimed d = c.paths := by
  unfold blockOf
  cases hset : setOf? claimed d.path with
  | none => exact .inl ⟨rfl, rfl⟩
  | some i =>
    obtain ⟨c, hc, howns⟩ := owns_of_setOf? hset
    exact .inr ⟨i, c, rfl, hc, howns, by simp [hc]⟩

/-- A leader is among the directories of its album. -/
theorem mem_blockOf (claimed : List ClaimedSet) (d : AudioDirectory) :
    ∃ p ∈ blockOf claimed d, p.same d.path := by
  obtain ⟨-, hblock⟩ | ⟨i, c, -, -, howns, hblock⟩ := blockOf_cases claimed d
  · exact ⟨d.path, by simp [hblock], same_refl _⟩
  · exact hblock ▸ howns

/-- What `claimLoose` yields, whatever the sets. -/
structure Owned (dirs : List AudioDirectory) (claimed : List ClaimedSet) : Prop where
  apart : (claimed.flatMap ClaimedSet.paths).Pairwise fun p q => ¬ p.same q
  known : ∀ c ∈ claimed, ∀ p ∈ c.paths, ∃ d ∈ dirs, d.path.same p

theorem owned_claimLoose (hsets : Among dirs sets) : Owned dirs (claimLoose dirs sets) := by
  have hclaims := claims_claimLoose dirs sets
  refine ⟨hclaims.paths_apart hsets, fun c hc p hp => ?_⟩
  obtain hp | hp := List.mem_append.mp hp
  · exact (hclaims.loose c hc p (Option.mem_toList.mp hp)).2.1
  · obtain ⟨m, hm, rfl⟩ := List.mem_map.mp hp
    obtain ⟨d, hd, hdm, -⟩ := hsets.disc c.discs (hclaims.discs_mem hc) m hm
    exact ⟨d, hd, same_iff.mpr (by rw [hdm])⟩

/-- The directories of an album are apart from each other, and from those of any other. -/
theorem blocks_apart (hdirs : dirs.Pairwise fun a b => ¬ a.path.same b.path)
    (howned : Owned dirs claimed) :
    ((leaders claimed [] dirs).flatMap (blockOf claimed)).Pairwise fun p q => ¬ p.same q := by
  obtain ⟨hinside, hpairs⟩ := List.pairwise_flatMap.mp howned.apart
  have hlead : (leaders claimed [] dirs).Pairwise _ := (leaders_apart [] dirs).1
  have hpaths : (leaders claimed [] dirs).Pairwise _ := hdirs.sublist (leaders_sublist [] dirs)
  rw [List.pairwise_flatMap]
  refine ⟨fun d _ => ?_, (hlead.and hpaths).imp fun {a b} hab p hp q hq hsame => ?_⟩
  · obtain ⟨-, hblock⟩ | ⟨i, c, -, hc, -, hblock⟩ := blockOf_cases claimed d
    · rw [hblock]
      exact List.pairwise_singleton _ _
    · rw [hblock]
      exact hinside c (List.mem_of_getElem? hc)
  · obtain ⟨hnew, hapart⟩ := hab
    obtain ⟨ha, hblock⟩ | ⟨i, c, ha, hc, hao, hblock⟩ := blockOf_cases claimed a
    · rw [hblock, List.mem_singleton] at hp
      subst hp
      obtain ⟨hb, hblock'⟩ | ⟨j, c', hb, hc', hbo, hblock'⟩ := blockOf_cases claimed b
      · rw [hblock', List.mem_singleton] at hq
        subst hq
        exact hapart hsame
      · rw [hblock'] at hq
        exact setOf?_eq_none.mp ha c' (List.mem_of_getElem? hc') ⟨q, hq, same_comm.mp hsame⟩
    · rw [hblock] at hp
      obtain ⟨hb, hblock'⟩ | ⟨j, c', hb, hc', hbo, hblock'⟩ := blockOf_cases claimed b
      · rw [hblock', List.mem_singleton] at hq
        subst hq
        exact setOf?_eq_none.mp hb c (List.mem_of_getElem? hc) ⟨p, hp, hsame⟩
      · rw [hblock'] at hq
        have hij : i = j := index_unique howned.apart hc hc' ⟨p, hp, hsame⟩ ⟨q, hq, same_refl q⟩
        exact hnew i ha (hij ▸ hb)

/-- Every directory is in the album of its leader, which is the directory or was seen before it. -/
theorem exists_block (hfiled : Filed root files dirs) (hd : d ∈ dirs) :
    ∃ e ∈ leaders claimed [] dirs, (∃ p ∈ blockOf claimed e, p.same d.path) ∧
      firstSeen root files e.path ≤ firstSeen root files d.path := by
  cases hset : setOf? claimed d.path with
  | none => exact ⟨d, mem_leaders_of_none hd hset [], mem_blockOf claimed d, Nat.le_refl _⟩
  | some i =>
    obtain ⟨e, he, hei, hbefore⟩ := exists_leader hd hset List.not_mem_nil hfiled.inOrder
    refine ⟨e, he, ?_, ?_⟩
    · obtain ⟨c, hc, howns⟩ := owns_of_setOf? hset
      have hblock : blockOf claimed e = c.paths := by simp [blockOf, hei, hc]
      exact hblock ▸ howns
    · obtain rfl | hlt := hbefore
      · exact Nat.le_refl _
      · exact Nat.le_of_lt hlt

/-- The albums hold every file once. -/
theorem files_perm (hfiled : Filed root files dirs) (howned : Owned dirs claimed) :
    ((emitAlbums dirs claimed [] dirs).flatMap (·.files)).Perm files := by
  have hleaders : ∀ d ∈ leaders claimed [] dirs, d ∈ dirs := fun d hd =>
    (leaders_sublist [] dirs).subset hd
  have hblocks : (emitAlbums dirs claimed [] dirs).flatMap (·.files) =
      ((leaders claimed [] dirs).flatMap (blockOf claimed)).flatMap (filesIn root files) := by
    rw [emitAlbums_eq, List.flatMap_map, List.flatMap_assoc]
    exact List.flatMap_congr fun d hd => files_albumOf hfiled (hleaders d hd)
  rw [hblocks]
  have hapart := blocks_apart hfiled.apart howned
  refine flatMap_filter_perm (hapart.imp fun hpq f _ hboth => ?_) fun f hf => ?_
  · exact hpq (same_trans hboth.1 (same_comm.mp hboth.2))
  · obtain ⟨d, hd, hsame⟩ := hfiled.all f hf
    obtain ⟨e, he, ⟨p, hp, hpd⟩, -⟩ := exists_block hfiled hd
    exact ⟨p, List.mem_flatMap.mpr ⟨e, he, hp⟩, same_trans hpd hsame⟩

/-- Where in a walk the first directory of an album is seen. -/
def seenAt (root : FilePath) (files : List FilePath) (p : GroupPlan) : Nat :=
  files.findIdx fun f => p.files.any fun g => (directoryIn root f).same (directoryIn root g)

/-- A directory is in one album. -/
theorem leader_unique (hdirs : dirs.Pairwise fun a b => ¬ a.path.same b.path)
    (howned : Owned dirs claimed) {a b : AudioDirectory} (ha : a ∈ leaders claimed [] dirs)
    (hb : b ∈ leaders claimed [] dirs) {p q dir : FilePath} (hp : p ∈ blockOf claimed a)
    (hq : q ∈ blockOf claimed b) (hpd : p.same dir) (hqd : q.same dir) : a = b := by
  have hpairs := (List.pairwise_flatMap.mp (blocks_apart hdirs howned)).2
  have : Std.Symm fun a b : AudioDirectory =>
      ∀ p ∈ blockOf claimed a, ∀ q ∈ blockOf claimed b, ¬ p.same q :=
    ⟨fun a b h p hp q hq hsame => h q hq p hp (same_comm.mp hsame)⟩
  by_contra hne
  exact hpairs.forall ha hb hne p hp q hq (same_trans hpd (same_comm.mp hqd))

/-- The first directory of an album is the one that emits it. -/
theorem seenAt_albumOf (hfiled : Filed root files dirs) (howned : Owned dirs claimed)
    (hd : d ∈ leaders claimed [] dirs) :
    seenAt root files (albumOf dirs claimed d) = firstSeen root files d.path := by
  have hdir : d ∈ dirs := (leaders_sublist [] dirs).subset hd
  have hfiles : (albumOf dirs claimed d).files = _ := files_albumOf hfiled hdir
  apply Nat.le_antisymm
  · refine List.findIdx_le_findIdx fun f hf hsame => ?_
    obtain ⟨p, hp, hpd⟩ := mem_blockOf claimed d
    rw [List.any_eq_true, hfiles]
    exact ⟨f, List.mem_flatMap.mpr ⟨p, hp, List.mem_filter.mpr ⟨hf, same_trans hpd hsame⟩⟩, same_refl _⟩
  · by_contra hlt
    rw [Nat.not_le] at hlt
    have hlength : seenAt root files (albumOf dirs claimed d) < files.length :=
      Nat.lt_of_lt_of_le hlt List.findIdx_le_length
    have hfound : (albumOf dirs claimed d).files.any fun g =>
        (directoryIn root files[seenAt root files (albumOf dirs claimed d)]).same (directoryIn root g) :=
      List.findIdx_getElem (w := hlength)
    rw [List.any_eq_true, hfiles] at hfound
    obtain ⟨g, hg, hsame⟩ := hfound
    obtain ⟨p, hp, hpg⟩ := List.mem_flatMap.mp hg
    -- the directory seen there is in the album, so its leader is the album's
    obtain ⟨d', hd', hd'f⟩ := hfiled.all _ (List.getElem_mem hlength)
    obtain ⟨e, he, ⟨q, hq, hqd'⟩, hle⟩ := exists_block hfiled hd'
    have hpd' : p.same d'.path :=
      same_trans (List.mem_filter.mp hpg).2 (same_comm.mp (same_trans hd'f hsame))
    obtain rfl : d = e := leader_unique hfiled.apart howned hd he hp hq hpd' hqd'
    have hseen : firstSeen root files d'.path ≤ seenAt root files (albumOf dirs claimed d) := by
      by_contra hlate
      rw [Nat.not_le] at hlate
      exact Bool.false_ne_true ((List.not_of_lt_findIdx hlate).symm.trans hd'f)
    omega

/-- The albums stand in the order in which the first of their directories was seen. -/
theorem albums_inOrder (hfiled : Filed root files dirs) (howned : Owned dirs claimed) :
    (emitAlbums dirs claimed [] dirs).Pairwise fun a b => seenAt root files a < seenAt root files b := by
  rw [emitAlbums_eq, List.pairwise_map]
  have hleaders : (leaders claimed [] dirs).Pairwise _ := hfiled.inOrder.sublist (leaders_sublist [] dirs)
  refine hleaders.imp_of_mem fun {a b} ha hb hab => ?_
  rwa [seenAt_albumOf hfiled howned ha, seenAt_albumOf hfiled howned hb]

/-- The files of an album by directory: those of the directory that has its name, then those of its
discs, which share parent and prefix, in ascending order of number and path. -/
structure LaidOut (root : FilePath) (files : List FilePath) (p : GroupPlan) (loose : Option FilePath)
    (discs : List DiscMember) : Prop where
  files_eq : p.files = (loose.toList ++ discs.map (·.path)).flatMap (filesIn root files)
  inhabited : ∀ dir ∈ loose.toList ++ discs.map (·.path), filesIn root files dir ≠ []
  key : ∀ dir ∈ loose, dir.text = p.key
  several : loose.isSome ∧ discs = [] ∨ 1 < discs.length
  shared : ∃ parent word, ∀ m ∈ discs, ∃ name q, m.path.fileName? = some name ∧
    discOfName? name = some (word, m.number) ∧ m.path.parent? = some q ∧ q.same parent
  ascending : discs.Pairwise fun a b =>
    a.number < b.number ∨ a.number = b.number ∧ a.path.compare b.path = .lt

theorem Among.ascending (hsets : Among dirs sets) {s : DiscSet} (hs : s ∈ sets) :
    s.members.Pairwise fun a b =>
      a.number < b.number ∨ a.number = b.number ∧ a.path.compare b.path = .lt := by
  have honce := hsets.once
  rw [List.map_flatMap, List.pairwise_flatMap] at honce
  have hapart := List.pairwise_map.mp (honce.1 s hs)
  refine ((hsets.inOrder s hs).and hapart).imp fun {a b} hab => ?_
  obtain ⟨hle, hne⟩ := hab
  obtain hlt | ⟨heq, hpath⟩ := inOrder_iff.mp hle
  · exact .inl hlt
  · refine .inr ⟨heq, ?_⟩
    cases hcmp : a.path.compare b.path with
    | lt => rfl
    | eq => exact absurd (same_of_compare_eq hcmp) hne
    | gt => simp [hcmp] at hpath

theorem Among.shared (hsets : Among dirs sets) {s : DiscSet} (hs : s ∈ sets) {m : DiscMember}
    (hm : m ∈ s.members) : ∃ name q, m.path.fileName? = some name ∧
      discOfName? name = some (s.shared, m.number) ∧ m.path.parent? = some q ∧ q.same s.parent := by
  obtain ⟨d, -, hdm, u, hu, hum, hjoins⟩ := hsets.disc s hs m hm
  rw [hdm] at hu
  simp only [ofDirectory?, Option.bind_eq_bind, Option.bind_eq_some_iff, Option.pure_def,
    Option.some.injEq] at hu
  obtain ⟨name, hname, ⟨shared, n⟩, hdisc, parent, hparent, rfl⟩ := hu
  obtain rfl : n = m.number := by simpa using congrArg (·.map (·.number)) hum
  refine ⟨name, parent, hname, ?_, hparent, hjoins.1⟩
  rw [hdisc, ← hjoins.2]

theorem filesIn_ne_nil (hfiled : Filed root files dirs) (hd : d ∈ dirs) {dir : FilePath}
    (hsame : d.path.same dir) : filesIn root files dir ≠ [] := by
  have heq : filesIn root files dir = filesIn root files d.path :=
    List.filter_congr fun f _ => (same_congr hsame _).symm
  rw [heq, ← hfiled.files_eq d hd]
  exact hfiled.files_ne_nil hd

/-- Every album is laid out. -/
theorem laidOut_albumOf (hfiled : Filed root files dirs) (hsets : Among dirs sets) (hd : d ∈ dirs) :
    ∃ loose discs, LaidOut root files (albumOf dirs (claimLoose dirs sets) d) loose discs := by
  have hclaims := claims_claimLoose dirs sets
  unfold albumOf
  split
  next =>
    refine ⟨some d.path, [], ?_, ?_, ?_, .inl ⟨rfl, rfl⟩, ⟨d.path, "", by simp⟩, .nil⟩
    · simp [hfiled.files_eq d hd]
    · intro dir hdir
      obtain rfl : dir = d.path := by simpa using hdir
      exact filesIn_ne_nil hfiled hd (same_refl _)
    · intro dir hdir
      obtain rfl : d.path = dir := by simpa using hdir
      rfl
  next c hc =>
    obtain ⟨i, -, hi⟩ := Option.bind_eq_some_iff.mp hc
    have hmem := List.mem_of_getElem? hi
    have hcs := hclaims.discs_mem hmem
    refine ⟨c.loose, c.discs.members, files_plan hfiled c, ?_, ?_, .inr (hsets.several _ hcs), ?_,
      Among.ascending hsets hcs⟩
    · intro dir hdir
      obtain ⟨e, he, hsame⟩ := (owned_claimLoose hsets).known c hmem dir hdir
      exact filesIn_ne_nil hfiled he hsame
    · intro dir hdir
      rw [(hclaims.loose c hmem dir hdir).1]
      rfl
    · exact ⟨c.discs.parent, c.discs.shared, fun m hm => Among.shared hsets hcs hm⟩

/-- Plans that hold the files of a walk: each once, none in no plan, none in an empty one. -/
structure Partitions (root : FilePath) (files : List FilePath) (plans : List GroupPlan) : Prop where
  files_perm : (plans.flatMap (·.files)).Perm files
  nonempty : ∀ p ∈ plans, p.files ≠ []
  laidOut : ∀ p ∈ plans, p.isAlbum → ∃ loose discs, LaidOut root files p loose discs
  inOrder : plans.Pairwise fun a b => seenAt root files a ≤ seenAt root files b ∧
    (a.isAlbum → seenAt root files a < seenAt root files b)

/-- Albums partition the files, in whatever order the sets of discs claim loose files. -/
theorem albumPlansFrom_partitions (hfiled : Filed root files dirs) (hsets : Among dirs sets) :
    Partitions root files (albumPlansFrom dirs sets) := by
  have howned := owned_claimLoose hsets
  refine ⟨files_perm hfiled howned, fun p hp => ?_, fun p hp _ => ?_, ?_⟩
  · obtain ⟨d, hdir, rfl⟩ := mem_emitAlbums_iff.mp hp
    obtain ⟨q, hq, hqd⟩ := mem_blockOf (claimLoose dirs sets) d
    have hne := filesIn_ne_nil hfiled hdir (same_comm.mp hqd)
    obtain ⟨f, hf⟩ := List.exists_mem_of_ne_nil _ hne
    rw [files_albumOf hfiled hdir]
    exact List.ne_nil_of_mem (List.mem_flatMap.mpr ⟨q, hq, hf⟩)
  · obtain ⟨d, hdir, rfl⟩ := mem_emitAlbums_iff.mp hp
    exact laidOut_albumOf hfiled hsets hdir
  · exact (albums_inOrder hfiled howned).imp fun hlt => ⟨Nat.le_of_lt hlt, fun _ => hlt⟩

theorem seenAt_singleton {f : FilePath} (hf : d.path.same (directoryIn root f)) :
    seenAt root files ⟨f.text, [f], false⟩ = firstSeen root files d.path := by
  unfold seenAt firstSeen
  congr 1
  funext g
  rw [List.any_cons, List.any_nil, Bool.or_false, Bool.eq_iff_iff, same_comm]
  exact ⟨same_trans hf, same_trans (same_comm.mp hf)⟩

theorem files_singletonPlans (hfiled : Filed root files dirs) :
    (singletonPlans dirs).flatMap (·.files) = (dirs.map (·.path)).flatMap (filesIn root files) := by
  unfold singletonPlans
  rw [List.flatMap_assoc, List.flatMap_map]
  refine List.flatMap_congr fun d hd => ?_
  rw [← hfiled.files_eq d hd, List.flatMap_map]
  exact List.flatMap_singleton' _

/-- Each file is a group of its own. -/
theorem singletonPlans_partitions (hfiled : Filed root files dirs) :
    Partitions root files (singletonPlans dirs) := by
  have hplan : ∀ p ∈ singletonPlans dirs, ∃ d ∈ dirs, ∃ f ∈ d.files, p = ⟨f.text, [f], false⟩ := by
    intro p hp
    obtain ⟨d, hd, hp⟩ := List.mem_flatMap.mp hp
    obtain ⟨f, hf, rfl⟩ := List.mem_map.mp hp
    exact ⟨d, hd, f, hf, rfl⟩
  have hseen {d : AudioDirectory} {f : FilePath} (hd : d ∈ dirs) (hf : f ∈ d.files) :
      seenAt root files ⟨f.text, [f], false⟩ = firstSeen root files d.path := by
    rw [hfiled.files_eq d hd] at hf
    exact seenAt_singleton (List.mem_filter.mp hf).2
  refine ⟨?_, fun p hp => ?_, fun p hp halbum => ?_, ?_⟩
  · have hapart : (dirs.map (·.path)).Pairwise fun p q => ¬ p.same q :=
      List.pairwise_map.mpr hfiled.apart
    rw [files_singletonPlans hfiled]
    refine flatMap_filter_perm (hapart.imp fun hpq f _ hboth => ?_) fun f hf => ?_
    · exact hpq (same_trans hboth.1 (same_comm.mp hboth.2))
    · obtain ⟨d, hd, hsame⟩ := hfiled.all f hf
      exact ⟨d.path, List.mem_map_of_mem hd, hsame⟩
  · obtain ⟨d, -, f, -, rfl⟩ := hplan p hp
    simp
  · obtain ⟨d, -, f, -, rfl⟩ := hplan p hp
    cases halbum
  · unfold singletonPlans
    rw [List.pairwise_flatMap]
    refine ⟨fun d hd => ?_, hfiled.inOrder.imp_of_mem fun {a b} ha hb hab p hp q hq => ?_⟩
    · rw [List.pairwise_map]
      refine List.Pairwise.imp_of_mem (fun {f g} hf hg _ => ?_)
        (List.pairwise_of_forall (R := fun _ _ => True) (by simp))
      rw [hseen hd hf, hseen hd hg]
      exact ⟨Nat.le_refl _, by simp⟩
    · obtain ⟨f, hf, rfl⟩ := List.mem_map.mp hp
      obtain ⟨g, hg, rfl⟩ := List.mem_map.mp hq
      rw [hseen ha hf, hseen hb hg]
      exact ⟨Nat.le_of_lt hab, by simp⟩

end MusicImport

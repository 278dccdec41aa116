import MusicImport.Proofs.Grouping.Discovered
import MusicImport.Proofs.Paths
import MusicImport.Proofs.Text.Normal

/-! The keys of albums. An album of one directory has the key of that directory, and a set of discs that
of its parent, or of the prefix of its first disc below the parent. Two albums have one key exactly where
discs without a prefix lie in a directory that has the name of a set of discs beside it. -/
namespace MusicImport

theorem DiscMarker.rawPrefix_prefix {last : Option Char} {cs : List Char} {m : DiscMarker}
    (h : scan? last cs = some m) : m.rawPrefix <+: cs := by
  induction cs generalizing last m with
  | nil => cases h
  | cons c cs ih =>
    unfold scan? at h
    split at h
    · cases h
      exact List.nil_prefix
    · split at h
      · cases h
      · obtain ⟨n, hn, rfl⟩ := Option.map_eq_some_iff.mp h
        exact List.cons_prefix_cons.mpr ⟨rfl, ih hn⟩

namespace FilePath

variable {p q : FilePath} {name other : String}

theorem lead_end (p : FilePath) : p.lead.reverse = [] ∨ p.lead.reverse.head? = some '/' := by
  unfold lead
  split
  · exact .inl rfl
  · split
    next hlast => exact .inr (by simpa using hlast)
    · exact .inr (by simp)

/-- A path that ends with a name is cut in one way only. -/
theorem join_injective (hname : '/' ∉ name.toList) (hother : '/' ∉ other.toList)
    (h : (p.join ⟨name⟩).text = (q.join ⟨other⟩).text) : p.lead = q.lead ∧ name = other := by
  have hchars : p.lead ++ name.toList = q.lead ++ other.toList := by
    rw [← join_name p hname, ← join_name q hother, h]
  have hlast : name.toList = other.toList := by
    have hcut := congrArg (fun cs => cs.reverse.takeWhile (· != '/')) hchars
    simp only [List.reverse_append] at hcut
    rw [takeWhile_name (by simpa using hname) p.lead_end,
      takeWhile_name (by simpa using hother) q.lead_end] at hcut
    exact List.reverse_inj.mp hcut
  rw [hlast] at hchars
  exact ⟨List.append_cancel_right hchars, String.toList_inj.mp hlast⟩

/-- A separator at the end does not count. -/
theorem components_lead (p : FilePath) :
    (FilePath.mk (String.ofList p.lead)).components = p.components := by
  unfold lead
  split
  next hempty =>
    obtain ⟨text⟩ := p
    subst hempty
    rfl
  next hne =>
    split
    · simp
    · have hchars : p.text.toList ≠ [] := by simpa using hne
      have habsolute :
          (FilePath.mk (String.ofList (p.text.toList ++ ['/']))).isAbsolute = p.isAbsolute := by
        simp [isAbsolute, List.head?_append_of_ne_nil _ hchars]
      have hpieces :
          (FilePath.mk (String.ofList (p.text.toList ++ ['/']))).pieces = p.pieces ++ [""] := by
        simp [pieces, Text.split, Text.splitChars_append, Text.splitChars]
      unfold components
      rw [hpieces, habsolute]
      cases hp : p.pieces with
      | nil =>
        have hsome := Text.splitChars_ne_nil '/' p.text.toList
        simp [pieces, Text.split, hsome] at hp
      | cons first rest => simp [Component.ofPiece?]

theorem same_of_lead (h : p.lead = q.lead) : p.same q := by
  rw [same_iff, ← components_lead p, ← components_lead q, h]

end FilePath

open FilePath DiscSet

variable {dirs : List AudioDirectory} {sets : List DiscSet} {s u : DiscSet}

namespace DiscSet

/-- The prefix of the first disc as written. -/
def written (s : DiscSet) : String :=
  ((s.members.head?.bind (·.path.fileName?)).bind fun name =>
    (DiscMarker.ofName? name).map (·.writtenPrefix)).getD ""

theorem keyPath_eq (s : DiscSet) :
    s.keyPath = if s.written = "" then s.parent else s.parent.join ⟨s.written⟩ := by
  unfold keyPath written
  cases (s.members.head?.bind (·.path.fileName?)).bind fun name =>
    (DiscMarker.ofName? name).map (·.writtenPrefix) <;> simp

/-- A set of discs without a prefix in a directory that has the name of another set. -/
def Shadows (s u : DiscSet) : Prop :=
  s.written = "" ∧ u.written ≠ "" ∧ s.parent.text = (u.parent.join ⟨u.written⟩).text

theorem Shadows.key_eq (h : Shadows s u) : s.keyPath.text = u.keyPath.text := by
  obtain ⟨hs, hu, htext⟩ := h
  rw [keyPath_eq, keyPath_eq, if_pos hs, if_neg hu, htext]

end DiscSet

/-- The prefix as written determines the one by which discs belong together. -/
theorem Among.written (hsets : Among dirs sets) (hs : s ∈ sets) :
    s.shared = Text.normalize s.written ∧ '/' ∉ s.written.toList := by
  obtain ⟨m, rest, hmembers⟩ : ∃ m rest, s.members = m :: rest := by
    have hseveral := hsets.several s hs
    cases hmembers : s.members with
    | nil => simp [hmembers] at hseveral
    | cons m rest => exact ⟨m, rest, rfl⟩
  obtain ⟨name, q, hname, hdisc, -, -⟩ := Among.shared hsets hs (hmembers ▸ List.mem_cons_self)
  obtain ⟨marker, hmarker, hnumber⟩ := Option.bind_eq_some_iff.mp hdisc
  obtain ⟨n, -, hshared⟩ := Option.map_eq_some_iff.mp hnumber
  have hwritten : s.written = Text.trim (String.ofList marker.rawPrefix) := by
    simp [DiscSet.written, hmembers, hname, hmarker, DiscMarker.writtenPrefix]
  refine ⟨?_, fun hslash => ?_⟩
  · rw [hwritten, Text.normalize_trim]
    exact (congrArg Prod.fst hshared).symm
  · obtain ⟨before, after, hraw, -⟩ := Text.trimChars_split marker.rawPrefix
    have hmem : '/' ∈ marker.rawPrefix := by
      rw [hwritten, Text.trim, String.toList_ofList, String.toList_ofList] at hslash
      rw [hraw]
      simp [hslash]
    exact slash_not_mem_fileName hname ((DiscMarker.rawPrefix_prefix hmarker).subset hmem)

/-- Two sets with one key are one set, or one of them shadows the other. -/
theorem Among.joins_or_shadows (hsets : Among dirs sets) (hs : s ∈ sets) (hu : u ∈ sets)
    (hkey : s.keyPath.text = u.keyPath.text) : Joins s u ∨ Shadows s u ∨ Shadows u s := by
  obtain ⟨hsshared, hsslash⟩ := Among.written hsets hs
  obtain ⟨hushared, huslash⟩ := Among.written hsets hu
  rw [DiscSet.keyPath_eq, DiscSet.keyPath_eq] at hkey
  by_cases hsempty : s.written = ""
  · by_cases huempty : u.written = ""
    · rw [if_pos hsempty, if_pos huempty] at hkey
      refine .inl ⟨same_iff.mpr ?_, by rw [hsshared, hushared, hsempty, huempty]⟩
      exact congrArg (fun text => (FilePath.mk text).components) hkey
    · rw [if_pos hsempty, if_neg huempty] at hkey
      exact .inr (.inl ⟨hsempty, huempty, hkey⟩)
  · by_cases huempty : u.written = ""
    · rw [if_neg hsempty, if_pos huempty] at hkey
      exact .inr (.inr ⟨huempty, hsempty, hkey.symm⟩)
    · rw [if_neg hsempty, if_neg huempty] at hkey
      obtain ⟨hlead, hwritten⟩ := join_injective hsslash huslash hkey
      exact .inl ⟨same_of_lead hlead, by rw [hsshared, hushared, hwritten]⟩

theorem key_albumOf (dirs : List AudioDirectory) (claimed : List ClaimedSet) (d : AudioDirectory) :
    (setOf? claimed d.path = none ∧ (albumOf dirs claimed d).key = d.path.text) ∨
    ∃ i c, setOf? claimed d.path = some i ∧ claimed[i]? = some c ∧
      (albumOf dirs claimed d).key = c.discs.keyPath.text := by
  unfold albumOf
  cases hset : setOf? claimed d.path with
  | none => exact .inl ⟨rfl, rfl⟩
  | some i =>
    obtain ⟨c, hc, -⟩ := owns_of_setOf? hset
    refine .inr ⟨i, c, rfl, hc, ?_⟩
    simp [hc, ClaimedSet.plan]

/-- A directory on its own has the key of no set: otherwise it is a disc, or some set claims it. -/
theorem ne_key_of_alone {d : AudioDirectory} (hd : d ∈ dirs)
    (halone : setOf? (claimLoose dirs sets) d.path = none) (hs : s ∈ sets) :
    d.path.text ≠ s.keyPath.text := by
  intro htext
  have hclaims := claims_claimLoose dirs sets
  have hsame : d.path.same s.keyPath := by
    rw [same_iff]
    exact congrArg (fun text => (FilePath.mk text).components) htext
  have hnone := setOf?_eq_none.mp halone
  obtain ⟨c, hc, p, hp, hpkey⟩ := hclaims.all s hs ⟨d, hd, hsame⟩ (by
    intro t ht hhas
    obtain ⟨c, hc, rfl⟩ := hclaims.exists_discs ht
    exact hnone c hc ((ClaimedSet.owns_of_has hhas).of_same (same_comm.mp hsame)))
  exact hnone c hc ((ClaimedSet.owns_of_loose hp hpkey).of_same (same_comm.mp hsame))

/-- Every set has an album with its key. -/
theorem exists_key (hfiled : dirs.Pairwise fun a b => ¬ a.path.same b.path) (hsets : Among dirs sets)
    {i : Nat} {c : ClaimedSet} (hc : (claimLoose dirs sets)[i]? = some c) :
    ∃ d ∈ leaders (claimLoose dirs sets) [] dirs, setOf? (claimLoose dirs sets) d.path = some i ∧
      (albumOf dirs (claimLoose dirs sets) d).key = c.discs.keyPath.text := by
  have hclaims := claims_claimLoose dirs sets
  have howned := owned_claimLoose hsets
  have hmem := List.mem_of_getElem? hc
  have hcs := hclaims.discs_mem hmem
  obtain ⟨m, hm⟩ := hsets.exists_disc hcs
  obtain ⟨d, hd, hdm, -⟩ := hsets.disc _ hcs m hm
  have howns : c.Owns d.path := hdm ▸ ClaimedSet.owns_of_has (has_disc hm)
  have hset := setOf?_eq_some howned.apart hc howns
  obtain ⟨e, he, hei, -⟩ := exists_leader hd hset List.not_mem_nil hfiled
  refine ⟨e, he, hei, ?_⟩
  obtain ⟨hnone, -⟩ | ⟨j, c', hj, hc', hkey⟩ := key_albumOf dirs (claimLoose dirs sets) e
  · simp [hei] at hnone
  · obtain rfl : i = j := by simpa [hei] using hj
    obtain rfl : c = c' := by simpa [hc] using hc'
    exact hkey

/-- Albums of two sets have different keys unless one set shadows the other. -/
theorem albums_keys_ne (hsets : Among dirs sets) (h : ∀ s ∈ sets, ∀ u ∈ sets, ¬ Shadows s u)
    {a b : AudioDirectory} (ha : a ∈ dirs) (hb : b ∈ dirs) (hpath : ¬ a.path.same b.path)
    (hset : ∀ i, setOf? (claimLoose dirs sets) a.path = some i →
      setOf? (claimLoose dirs sets) b.path ≠ some i) :
    (albumOf dirs (claimLoose dirs sets) a).key ≠ (albumOf dirs (claimLoose dirs sets) b).key := by
  have hclaims := claims_claimLoose dirs sets
  intro hkey
  obtain ⟨hanone, hakey⟩ | ⟨i, c, hai, hc, hakey⟩ := key_albumOf dirs (claimLoose dirs sets) a
  · obtain ⟨-, hbkey⟩ | ⟨j, c', -, hc', hbkey⟩ := key_albumOf dirs (claimLoose dirs sets) b
    · rw [hakey, hbkey] at hkey
      exact hpath (same_iff.mpr (congrArg (fun text => (FilePath.mk text).components) hkey))
    · rw [hakey, hbkey] at hkey
      exact ne_key_of_alone ha hanone (List.mem_of_getElem? (hclaims.discs_getElem? hc')) hkey
  · obtain ⟨hbnone, hbkey⟩ | ⟨j, c', hbj, hc', hbkey⟩ := key_albumOf dirs (claimLoose dirs sets) b
    · rw [hakey, hbkey] at hkey
      exact ne_key_of_alone hb hbnone (List.mem_of_getElem? (hclaims.discs_getElem? hc)) hkey.symm
    · rw [hakey, hbkey] at hkey
      have hs := List.mem_of_getElem? (hclaims.discs_getElem? hc)
      have hu := List.mem_of_getElem? (hclaims.discs_getElem? hc')
      obtain hjoins | hshadows | hshadows := Among.joins_or_shadows hsets hs hu hkey
      · have hij : i = j :=
          index_eq_of_pairwise Joins.symm hsets.apart (hclaims.discs_getElem? hc) (hclaims.discs_getElem? hc') hjoins
        exact hset i hai (hij ▸ hbj)
      · exact h _ hs _ hu hshadows
      · exact h _ hu _ hs hshadows

/-- The keys of albums are distinct exactly if no set of discs shadows another. -/
theorem keys_nodup_iff (hdirs : dirs.Pairwise fun a b => ¬ a.path.same b.path)
    (hsets : Among dirs sets) :
    ((albumPlansFrom dirs sets).map (·.key)).Nodup ↔ ∀ s ∈ sets, ∀ u ∈ sets, ¬ Shadows s u := by
  have hclaims := claims_claimLoose dirs sets
  have hsub : (leaders (claimLoose dirs sets) [] dirs).Sublist dirs := leaders_sublist [] dirs
  unfold albumPlansFrom
  rw [emitAlbums_eq, List.map_map]
  constructor
  · intro hnodup s hs u hu hshadows
    obtain ⟨c, hc, rfl⟩ := hclaims.exists_discs hs
    obtain ⟨c', hc', rfl⟩ := hclaims.exists_discs hu
    obtain ⟨i, hi⟩ := List.mem_iff_getElem?.mp hc
    obtain ⟨j, hj⟩ := List.mem_iff_getElem?.mp hc'
    obtain ⟨a, ha, hai, hakey⟩ := exists_key hdirs hsets hi
    obtain ⟨b, hb, hbj, hbkey⟩ := exists_key hdirs hsets hj
    have hab : a = b :=
      List.inj_on_of_nodup_map hnodup ha hb ((hakey.trans hshadows.key_eq).trans hbkey.symm)
    have hij : i = j := by
      rw [hab, hbj] at hai
      exact (Option.some.inj hai).symm
    obtain rfl : c = c' := by
      rw [hij, hj] at hi
      exact (Option.some.inj hi).symm
    exact hshadows.2.1 hshadows.1
  · intro h
    have hlead : (leaders (claimLoose dirs sets) [] dirs).Pairwise _ := (leaders_apart [] dirs).1
    rw [List.nodup_iff_pairwise_ne, List.pairwise_map]
    refine ((hdirs.sublist hsub).and hlead).imp_of_mem fun {a b} ha hb hab => ?_
    exact albums_keys_ne hsets h (hsub.subset ha) (hsub.subset hb) hab.1 hab.2

namespace FileTree

variable {t : FileTree} {root : FilePath} {follow : Bool} {plans : List GroupPlan}

/-- A file alone is no set of discs. -/
theorem ofDirectories_single (root f : FilePath) : ofDirectories (byDirectory root [f]) = [] := by
  have hsingle : byDirectory root [f] = [⟨directoryIn root f, [f]⟩] := rfl
  rw [hsingle, ofDirectories, List.filterMap_cons, List.filterMap_nil]
  cases hs : ofDirectory? (directoryIn root f) with
  | none => rfl
  | some s =>
    obtain ⟨n, hn⟩ := ofDirectory?_members hs
    simp [addTo, hn]

/-- The keys of the albums below a root are distinct exactly if no set of discs shadows another one,
whichever set claims loose files first. -/
theorem discover_keys_nodup_iff (h : t.discover root false follow = .ok plans) :
    let dirs := byDirectory root (t.found root follow)
    ((plans.map (·.key)).Nodup ↔ ∀ s ∈ ofDirectories dirs, ∀ u ∈ ofDirectories dirs, ¬ Shadows s u) ∧
    ∀ sets, sets.Perm (ofDirectories dirs) →
      (((albumPlansFrom dirs sets).map (·.key)).Nodup ↔ (plans.map (·.key)).Nodup) := by
  intro dirs
  have hfiled : Filed root (t.found root follow) dirs := filed_byDirectory root (t.found root follow)
  have hsets := ofDirectories_among hfiled.apart
  have hplans : (plans.map (·.key)).Nodup ↔
      ∀ s ∈ ofDirectories dirs, ∀ u ∈ ofDirectories dirs, ¬ Shadows s u := by
    obtain ⟨hfile, rfl⟩ | ⟨-, rfl⟩ := discover_ok h
    · have hnone : ofDirectories dirs = [] := by
        have hfound : t.found root follow = [root] := by simp [found, hfile]
        simp only [dirs, hfound, ofDirectories_single]
      simp [hnone]
    · exact keys_nodup_iff hfiled.apart hsets
  refine ⟨hplans, fun sets hperm => ?_⟩
  rw [hplans, keys_nodup_iff hfiled.apart (hsets.perm hperm)]
  simp only [hperm.mem_iff]

theorem wallPlans_keys : ¬ (wallPlans.map (·.key)).Nodup := by simp [wallPlans]

theorem discover_keys_wall : wallTree.discover ⟨"m"⟩ false false = .ok wallPlans ∧
    ∃ s ∈ ofDirectories (byDirectory ⟨"m"⟩ (wallTree.found ⟨"m"⟩ false)),
      ∃ u ∈ ofDirectories (byDirectory ⟨"m"⟩ (wallTree.found ⟨"m"⟩ false)), Shadows s u := by
  refine ⟨wallTree_discover, ?_⟩
  obtain ⟨hiff, -⟩ := discover_keys_nodup_iff wallTree_discover
  by_contra hnone
  exact wallPlans_keys (hiff.mpr fun s hs u hu hshadows => hnone ⟨s, hs, u, hu, hshadows⟩)

/-- Two albums below one root can have one key. -/
theorem discover_keys_not_distinct :
    ¬ ∀ (t : FileTree) (root : FilePath) (follow : Bool) (plans : List GroupPlan), t.Proper →
      t.discover root false follow = .ok plans → (plans.map (·.key)).Nodup := fun h =>
  wallPlans_keys (h wallTree ⟨"m"⟩ false wallPlans wallTree_proper wallTree_discover)

end FileTree
end MusicImport

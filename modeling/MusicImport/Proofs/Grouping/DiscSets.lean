import Mathlib.Data.List.Flatten
import MusicImport.Proofs.Grouping.Directories

/-! Sets of discs. A directory is a disc of one set at most, the discs of a set share their parent and
their prefix and stand in ascending order, and no two sets have the same parent and prefix. -/
namespace MusicImport

namespace FilePath

/-- The text of a component that is a name. -/
def Component.nameText : Component → String
  | .name s => s
  | _ => ""

theorem Component.compare_eq :
    Component.compare = compareLex (compareOn Component.rank) (compareOn Component.nameText) := by
  funext a b
  cases a <;> cases b <;> simp [Component.compare, compareLex, compareOn, rank, nameText] <;> rfl

instance : Std.TransCmp Component.compare := by
  rw [Component.compare_eq]
  infer_instance

instance : Std.LawfulEqCmp Component.compare where
  eq_of_compare := by
    intro a b h
    cases a <;> cases b <;> simp_all [Component.compare, Component.rank]

theorem compareComponents_eq : compareComponents = List.compareLex Component.compare := by
  funext as bs
  induction as generalizing bs with
  | nil => cases bs <;> simp [compareComponents, List.compareLex]
  | cons a as ih =>
    cases bs with
    | nil => rfl
    | cons b bs => rw [compareComponents, List.compareLex_cons_cons, ih]

instance : Std.TransCmp compareComponents := by
  rw [compareComponents_eq]
  infer_instance

instance : Std.LawfulEqCmp compareComponents := by
  rw [compareComponents_eq]
  infer_instance

instance : Std.TransCmp FilePath.compare where
  eq_swap {p q} := by
    have hswap : compareComponents p.components q.components =
        (compareComponents q.components p.components).swap := Std.OrientedCmp.eq_swap
    exact hswap
  isLE_trans {p q r} h h' := by
    have hle : (compareComponents p.components r.components).isLE := Std.TransCmp.isLE_trans h h'
    exact hle

/-- Paths are of equal rank if they have the same components. -/
theorem same_of_compare_eq {p q : FilePath} (h : p.compare q = .eq) : p.same q :=
  same_iff.mpr (Std.LawfulEqCmp.eq_of_compare h)

end FilePath

namespace DiscSet

open FilePath

variable {dirs : List AudioDirectory} {s t : DiscSet} {sets singles : List DiscSet}

/-- Sets that are one: of the same parent and prefix. -/
def Joins (s t : DiscSet) : Prop := s.parent.same t.parent ∧ s.shared = t.shared

theorem Joins.refl (s : DiscSet) : Joins s s := ⟨same_refl _, rfl⟩

theorem Joins.symm (h : Joins s t) : Joins t s := ⟨same_comm.mp h.1, h.2.symm⟩

theorem mem_addTo (h : t ∈ s.addTo sets) :
    t ∈ sets ∨ t = s ∨ ∃ u ∈ sets, Joins u s ∧ t = { u with members := u.members ++ s.members } := by
  induction sets with
  | nil => simpa [addTo] using h
  | cons u us ih =>
    rw [addTo] at h
    split at h
    next hjoins =>
      obtain rfl | h := List.mem_cons.mp h
      · exact .inr (.inr ⟨u, .head _, by simpa [Joins] using hjoins, rfl⟩)
      · exact .inl (.tail _ h)
    · obtain rfl | h := List.mem_cons.mp h
      · exact .inl (.head _)
      · obtain h | h | ⟨v, hv, hv'⟩ := ih h
        · exact .inl (.tail _ h)
        · exact .inr (.inl h)
        · exact .inr (.inr ⟨v, .tail _ hv, hv'⟩)

theorem addTo_apart (s : DiscSet) (h : sets.Pairwise fun a b => ¬ Joins a b) :
    (s.addTo sets).Pairwise fun a b => ¬ Joins a b := by
  induction sets with
  | nil => exact List.pairwise_singleton _ _
  | cons t ts ih =>
    obtain ⟨hfirst, hrest⟩ := List.pairwise_cons.mp h
    rw [addTo]
    split
    · exact List.pairwise_cons.mpr ⟨hfirst, hrest⟩
    next hjoins =>
      refine List.pairwise_cons.mpr ⟨fun u hu => ?_, ih hrest⟩
      obtain hu | rfl | ⟨v, hv, -, rfl⟩ := mem_addTo hu
      · exact hfirst u hu
      · simpa [Joins] using hjoins
      · exact hfirst v hv

theorem addTo_members (s : DiscSet) (sets : List DiscSet) :
    ((s.addTo sets).flatMap (·.members)).Perm (sets.flatMap (·.members) ++ s.members) := by
  induction sets with
  | nil => simp [addTo]
  | cons t ts ih =>
    rw [addTo]
    split
    · rw [List.flatMap_cons, List.flatMap_cons, List.append_assoc, List.append_assoc]
      exact List.perm_append_comm.append_left _
    · rw [List.flatMap_cons, List.flatMap_cons, List.append_assoc]
      exact ih.append_left _

/-- The sets of the discs found so far. -/
structure Collected (singles sets : List DiscSet) : Prop where
  apart : sets.Pairwise fun a b => ¬ Joins a b
  members : (sets.flatMap (·.members)).Perm (singles.flatMap (·.members))
  origin : ∀ t ∈ sets, ∀ m ∈ t.members, ∃ s ∈ singles, m ∈ s.members ∧ Joins s t

theorem Collected.add (h : Collected singles sets) (s : DiscSet) :
    Collected (singles ++ [s]) (s.addTo sets) := by
  refine ⟨addTo_apart s h.apart, ?_, ?_⟩
  · rw [List.flatMap_append, List.flatMap_singleton]
    exact (addTo_members s sets).trans (h.members.append_right _)
  · intro t ht m hm
    have hlast : s ∈ singles ++ [s] := by simp
    obtain ht | rfl | ⟨u, hu, hjoins, rfl⟩ := mem_addTo ht
    · obtain ⟨x, hx, hx'⟩ := h.origin t ht m hm
      exact ⟨x, List.mem_append_left _ hx, hx'⟩
    · exact ⟨t, hlast, hm, same_refl _, rfl⟩
    · obtain hm | hm := List.mem_append.mp hm
      · obtain ⟨x, hx, hx'⟩ := h.origin u hu m hm
        exact ⟨x, List.mem_append_left _ hx, hx'⟩
      · exact ⟨s, hlast, hm, hjoins.symm⟩

theorem collected_foldl (singles : List DiscSet) :
    Collected singles (singles.foldl (fun sets s => s.addTo sets) []) := by
  induction singles using List.reverseRecOn with
  | nil => exact ⟨.nil, .nil, by simp⟩
  | append_singleton singles s ih =>
    rw [List.foldl_append]
    exact ih.add s

theorem inOrder_iff {a b : DiscMember} : inOrder a b ↔
    a.number < b.number ∨ a.number = b.number ∧ (a.path.compare b.path).isLE := by
  unfold inOrder
  rcases Nat.lt_trichotomy a.number b.number with h | h | h
  · simp [h, Nat.compare_eq_lt.mpr h]
  · simp [h, Ordering.isLE_iff_ne_gt]
  · have : ¬ a.number < b.number := by omega
    simp [this, Nat.compare_eq_gt.mpr h, Nat.ne_of_gt h]

theorem inOrder_trans {a b c : DiscMember} (h : inOrder a b) (h' : inOrder b c) : inOrder a c := by
  rw [inOrder_iff] at *
  obtain h | ⟨h, hpath⟩ := h
  · left
    omega
  · obtain h' | ⟨h', hpath'⟩ := h'
    · left
      omega
    · exact .inr ⟨by omega, Std.TransCmp.isLE_trans hpath hpath'⟩

theorem inOrder_total (a b : DiscMember) : inOrder a b ∨ inOrder b a := by
  rw [inOrder_iff, inOrder_iff]
  rcases Nat.lt_trichotomy a.number b.number with h | h | h
  · exact .inl (.inl h)
  · have hpath : (a.path.compare b.path).isLE ∨ (b.path.compare a.path).isLE := by
      have hswap : b.path.compare a.path = (a.path.compare b.path).swap := Std.OrientedCmp.eq_swap
      rw [hswap]
      cases a.path.compare b.path <;> simp
    exact hpath.imp (fun x => .inr ⟨h, x⟩) fun x => .inr ⟨h.symm, x⟩
  · exact .inr (.inl h)

/-- What every set of discs is: of discs among the directories, in ascending order, apart from others. -/
structure Among (dirs : List AudioDirectory) (sets : List DiscSet) : Prop where
  apart : sets.Pairwise fun a b => ¬ Joins a b
  disc : ∀ s ∈ sets, ∀ m ∈ s.members, ∃ d ∈ dirs, d.path = m.path ∧
    ∃ u, ofDirectory? d.path = some u ∧ u.members = [m] ∧ Joins u s
  once : ((sets.flatMap (·.members)).map (·.path)).Pairwise fun p q => ¬ p.same q
  several : ∀ s ∈ sets, 1 < s.members.length
  inOrder : ∀ s ∈ sets, s.members.Pairwise fun a b => inOrder a b

theorem Among.exists_disc (h : Among dirs sets) (hs : s ∈ sets) : ∃ m, m ∈ s.members := by
  have hseveral := h.several s hs
  exact List.exists_mem_of_length_pos (by omega)

theorem has_disc {m : DiscMember} (hm : m ∈ s.members) : s.has m.path :=
  List.any_eq_true.mpr ⟨m, hm, same_refl _⟩

theorem has_of_same {p q : FilePath} (h : s.has p) (hsame : p.same q) : s.has q := by
  obtain ⟨m, hm, hmp⟩ := List.any_eq_true.mp h
  exact List.any_eq_true.mpr ⟨m, hm, same_trans hmp hsame⟩

theorem ofDirectory?_members {dir : FilePath} (h : ofDirectory? dir = some s) :
    ∃ n, s.members = [⟨n, dir⟩] := by
  simp only [ofDirectory?, Option.bind_eq_bind, Option.bind_eq_some_iff, Option.pure_def,
    Option.some.injEq] at h
  obtain ⟨name, -, ⟨shared, n⟩, -, parent, -, rfl⟩ := h
  exact ⟨n, rfl⟩

theorem paths_sublist (dirs : List AudioDirectory) :
    (((dirs.filterMap (ofDirectory? ·.path)).flatMap (·.members)).map (·.path)).Sublist
      (dirs.map (·.path)) := by
  induction dirs with
  | nil => simp
  | cons d ds ih =>
    rw [List.map_cons, List.filterMap_cons]
    cases hd : ofDirectory? d.path with
    | none => exact ih.cons _
    | some s =>
      obtain ⟨n, hn⟩ := ofDirectory?_members hd
      simp only [List.flatMap_cons, hn, List.map_cons, List.singleton_append]
      exact ih.cons_cons _

/-- Not being the same place, for paths in any order. -/
theorem apart_of_perm {ps qs : List FilePath} (hperm : ps.Perm qs)
    (h : qs.Pairwise fun p q => ¬ p.same q) : ps.Pairwise fun p q => ¬ p.same q :=
  hperm.symm.pairwise h fun hpq hqp => hpq (same_comm.mp hqp)

theorem ofDirectories_among (hdirs : dirs.Pairwise fun a b => ¬ a.path.same b.path) :
    Among dirs (ofDirectories dirs) := by
  have hcollected := collected_foldl (dirs.filterMap (ofDirectory? ·.path))
  unfold ofDirectories
  generalize (dirs.filterMap (ofDirectory? ·.path)).foldl (fun sets s => s.addTo sets) [] = all
    at hcollected
  refine ⟨?_, ?_, ?_, ?_, ?_⟩
  · rw [List.pairwise_map]
    exact hcollected.apart.filter _
  · intro s hs m hm
    obtain ⟨t, ht, rfl⟩ := List.mem_map.mp hs
    have hm' : m ∈ t.members := (List.mergeSort_perm _ _).mem_iff.mp hm
    obtain ⟨u, hu, hmu, hjoins⟩ := hcollected.origin t (List.mem_of_mem_filter ht) m hm'
    obtain ⟨d, hd, hdu⟩ := List.mem_filterMap.mp hu
    obtain ⟨n, hn⟩ := ofDirectory?_members hdu
    obtain rfl : m = ⟨n, d.path⟩ := by simpa [hn] using hmu
    exact ⟨d, hd, rfl, u, hdu, hn, hjoins⟩
  · have hpaths : (((all.filter fun s => 1 < s.members.length).flatMap (·.members)).map (·.path)).Pairwise
        fun p q => ¬ p.same q := by
      have hall := apart_of_perm (hcollected.members.map (·.path))
        ((List.pairwise_map.mpr hdirs).sublist (paths_sublist dirs))
      exact hall.sublist ((List.filter_sublist.flatMap _).map _)
    refine apart_of_perm (List.Perm.map _ ?_) hpaths
    rw [List.flatMap_map]
    exact List.Perm.flatMap_left _ fun s _ => List.mergeSort_perm _ _
  · intro s hs
    obtain ⟨t, ht, rfl⟩ := List.mem_map.mp hs
    simpa using (List.mem_filter.mp ht).2
  · intro s hs
    obtain ⟨t, ht, rfl⟩ := List.mem_map.mp hs
    have htotal : ∀ a b, (inOrder a b || inOrder b a) = true := by simpa using inOrder_total
    have htrans : ∀ a b c, inOrder a b → inOrder b c → inOrder a c := fun _ _ _ => inOrder_trans
    exact List.pairwise_mergeSort htrans htotal _

/-- The sets of at least two discs among directories, discs in the order of their directories. -/
def unsorted (dirs : List AudioDirectory) : List DiscSet :=
  ((dirs.filterMap (ofDirectory? ·.path)).foldl (fun sets s => s.addTo sets) []).filter
    fun s => 1 < s.members.length

/-- Where the directories come in ascending order there is nothing to sort. -/
theorem ofDirectories_eq (h : ∀ s ∈ unsorted dirs, s.members.Pairwise fun a b => inOrder a b) :
    ofDirectories dirs = unsorted dirs := by
  have hsorted : ∀ s ∈ unsorted dirs, { s with members := s.members.mergeSort inOrder } = s :=
    fun s hs => by rw [List.mergeSort_of_pairwise (h s hs)]
  exact (List.map_congr_left hsorted).trans (List.map_id' _)

end DiscSet
end MusicImport

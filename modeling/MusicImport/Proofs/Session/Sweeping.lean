import MusicImport.Proofs.Session.Booking
import MusicImport.Proofs.Session.Runs

/-! An import as a sweep over its groups, in the order of the scan. A group without readable tracks is passed
over, any other is booked, and an abort ends the sweep. -/
namespace MusicImport

open Session (conclude settleGroup)

/-- A group that an import came to: its tracks as they were read, and how it was booked. -/
structure Visit where
  plan : GroupPlan
  tracks : List Track
  booking : Option Booking

namespace Visit

def report? (v : Visit) : Option TaskReport := v.booking.map (·.report)

/-- A group is booked, under its own key, if any of its tracks could be read. -/
structure Sound (v : Visit) : Prop where
  booked : v.booking.isSome ↔ v.tracks ≠ []
  key : ∀ r, v.report? = some r → r.key = v.plan.key

theorem Sound.reports {vs : List Visit} (h : ∀ v ∈ vs, v.Sound) :
    (vs.filterMap (·.report?)).map (·.key) = (vs.filter (·.tracks ≠ [])).map (·.plan.key) := by
  induction vs with
  | nil => rfl
  | cons v rest ih =>
    have hv := h v (.head _)
    have hrest := ih fun x hx => h x (.tail _ hx)
    cases hb : v.booking with
    | none =>
      have hnone : v.report? = none := by rw [report?, hb, Option.map_none]
      have htracks : v.tracks = [] := by simpa [hb] using hv.booked
      rw [List.filterMap_cons_none hnone, List.filter_cons_of_neg (by simpa using htracks), hrest]
    | some b =>
      have hsome : v.report? = some b.report := by rw [report?, hb, Option.map_some]
      have htracks : v.tracks ≠ [] := hv.booked.mp (by rw [hb]; rfl)
      rw [List.filterMap_cons_some hsome, List.filter_cons_of_pos (by simpa using htracks),
        List.map_cons, List.map_cons, hrest, hv.key _ hsome]

end Visit

/-- How a group that was taken up is booked. -/
def Taking.booking (env : Environment) (x : Taking) : Booking :=
  conclude env (settleGroup env x.task) x.task x.before

namespace Session

variable {s s' u : Session} {env : Environment} {time : Timestamp} {t : Task} {l l' : Ledger}
  {plan : GroupPlan} {plans : List GroupPlan} {tracks : List Track} {vs : List Visit}

/-- A sweep from one state of the ledger and the session to another, with what was visited. -/
inductive Sweeps (env : Environment) (time : Timestamp) :
    Ledger → Session → List GroupPlan → List Visit → Ledger → Session → Prop
  | finished (l : Ledger) (s : Session) : Sweeps env time l s [] [] l s
  | aborted {l : Ledger} {s u : Session} {plan : GroupPlan} {plans : List GroupPlan}
      {tracks : List Track} {t : Task} (hread : s.doing (readGroup env plan.files) = (tracks, u))
      (htask : plan.task? tracks = some t) (haborted : u.look.aborted = true) :
      Sweeps env time l s (plan :: plans) [] l u.look
  | unreadable {l l' : Ledger} {s u s' : Session} {plan : GroupPlan} {plans : List GroupPlan}
      {vs : List Visit} (hread : s.doing (readGroup env plan.files) = ([], u))
      (hrest : Sweeps env time l u plans vs l' s') :
      Sweeps env time l s (plan :: plans) (⟨plan, [], none⟩ :: vs) l' s'
  | taken {l l' : Ledger} {s u s' : Session} {plan : GroupPlan} {plans : List GroupPlan}
      {tracks : List Track} {t : Task} {b : Booking} {w : JournalWriter} {files : FileTree}
      {vs : List Visit} (hread : s.doing (readGroup env plan.files) = (tracks, u))
      (htask : plan.task? tracks = some t) (hlive : u.look.aborted = false)
      (hb : b = conclude env (settleGroup env t) t u.look)
      (happend : l.writer.append b.closing.files (b.entry time) = .ok (w, files))
      (hrest : Sweeps env time { l with writer := w, reports := l.reports ++ [b.report] }
        { b.closing with files } plans vs l' s') :
      Sweeps env time l s (plan :: plans) (⟨plan, tracks, some b⟩ :: vs) l' s'

theorem task?_eq_none (plan : GroupPlan) : plan.task? tracks = none ↔ tracks = [] := by
  cases tracks <;> simp [GroupPlan.task?]

theorem task?_key (h : plan.task? tracks = some t) : t.key = plan.key := by
  cases tracks with
  | nil => cases h
  | cons first rest =>
    obtain rfl := Option.some.inj h
    rfl

/-- Groups can be swept from every state, since the appends to the journal succeed. -/
theorem exists_sweeps (env : Environment) (time : Timestamp) (l : Ledger) (s : Session)
    (plans : List GroupPlan) : ∃ vs l' s', Sweeps env time l s plans vs l' s' := by
  induction plans generalizing l s with
  | nil => exact ⟨[], l, s, .finished l s⟩
  | cons plan rest ih =>
    rcases hread : s.doing (readGroup env plan.files) with ⟨tracks, u⟩
    cases htask : plan.task? tracks with
    | none =>
      obtain rfl := (task?_eq_none plan).mp htask
      obtain ⟨vs, l', s', hsweeps⟩ := ih l u
      exact ⟨_, l', s', .unreadable hread hsweeps⟩
    | some t =>
      cases hlive : u.look.aborted with
      | true => exact ⟨[], l, u.look, .aborted hread htask hlive⟩
      | false =>
        obtain ⟨b, hb⟩ : ∃ b, b = conclude env (settleGroup env t) t u.look := ⟨_, rfl⟩
        obtain ⟨files, happend⟩ := l.writer.append_ok b.closing.files (b.entry time)
        obtain ⟨vs, l', s', hsweeps⟩ := ih _ _
        exact ⟨_, l', s', .taken hread htask hlive hb happend hsweeps⟩

/-- A group that is taken up is booked. -/
theorem importTask_run (ht : Fresh t) (hpending : l.pending = none) {b : Booking} {w : JournalWriter}
    {files : FileTree} (hb : b = conclude env (settleGroup env t) t s)
    (happend : l.writer.append b.closing.files (b.entry time) = .ok (w, files)) :
    s.trying (importTask env time l t) =
      (.ok { l with writer := w, reports := l.reports ++ [b.report] }, { b.closing with files }) := by
  have hrun := conclude_run time (settleGroup_from (s := s) env ht) ht.origin ht.tracks hpending
  obtain ⟨files', happend', henter⟩ := enterReport_run time l b.report b.closing
  obtain ⟨rfl, rfl⟩ : _ = w ∧ files' = files := by simpa using happend'.symm.trans happend
  rw [← hb] at hrun
  exact hrun.trans henter

/-- A sweep is what an import of the groups does. -/
theorem Sweeps.run (h : Sweeps env time l s plans vs l' s') (hpending : l.pending = none) :
    s.trying (importGroups env time l plans) = (.ok l', s') := by
  induction h with
  | finished => rfl
  | aborted hread htask haborted =>
    unfold importGroups
    simp only [trying_bind, trying_liftM, hread, htask, doing_isAborted, haborted, if_true, trying_pure]
  | unreadable hread _ ih =>
    unfold importGroups
    rw [trying_bind, trying_liftM, hread]
    exact ih hpending
  | taken hread htask hlive hb happend _ ih =>
    have himport := importTask_run (task?_fresh htask) hpending hb happend
    unfold importGroups
    simp only [trying_bind, trying_liftM, hread, htask, doing_isAborted, hlive, Bool.false_eq_true,
      if_false, himport]
    exact ih hpending

/-- The groups that are booked are those that the import takes up, and the catalog changes in no other
place. -/
theorem Sweeps.takings (h : Sweeps env time l s plans vs l' s') (hpending : l.pending = none) :
    vs.filterMap (·.booking) = (takings env time l plans s).map (·.booking env) ∧
    vs.filterMap (·.report?) = (takings env time l plans s).filterMap (·.report?) ∧
    s'.catalog = catalogAfter s.catalog (takings env time l plans s) := by
  induction h with
  | finished => exact ⟨rfl, rfl, rfl⟩
  | aborted hread htask haborted =>
    have hu := ((readGroup_consults _ _).result hread).trans (look_consults _)
    unfold Session.takings
    simp only [hread, htask, haborted, if_true]
    exact ⟨rfl, rfl, hu.catalog⟩
  | unreadable hread _ ih =>
    have hu := (readGroup_consults _ _).result hread
    unfold Session.takings
    rw [hread]
    obtain ⟨hbookings, hreports, hcatalog⟩ := ih hpending
    exact ⟨hbookings, hreports, by rw [hcatalog, hu.catalog]; rfl⟩
  | @taken l l' s u s' plan plans tracks t b w files vs hread htask hlive hb happend _ ih =>
    have himport := importTask_run (task?_fresh htask) hpending hb happend
    have hresult : (takeUp env time l t u.look).result = _ := congrArg Prod.fst himport
    have hafter : (takeUp env time l t u.look).after = _ := congrArg Prod.snd himport
    have hbooking : (takeUp env time l t u.look).booking env = b := hb.symm
    have hreport : (takeUp env time l t u.look).report? = some b.report := by
      have hledger : (takeUp env time l t u.look).ledger = l := rfl
      simp [Taking.report?, hresult, hledger]
    unfold Session.takings
    simp only [hread, htask, hlive, Bool.false_eq_true, if_false, hresult, hafter]
    obtain ⟨hbookings, hreports, hcatalog⟩ := ih hpending
    refine ⟨?_, ?_, ?_⟩
    · rw [List.map_cons, hbooking, ← hbookings]
      rfl
    · rw [List.filterMap_cons_some hreport, ← hreports]
      rfl
    · rw [hcatalog]
      unfold catalogAfter
      rw [List.foldl_cons, hafter]

theorem Sweeps.reports (h : Sweeps env time l s plans vs l' s') :
    l'.reports = l.reports ++ vs.filterMap (·.report?) := by
  induction h with
  | finished => simp
  | aborted => simp
  | unreadable _ _ ih => exact ih
  | taken _ _ _ _ _ _ ih =>
    rw [ih, List.append_assoc]
    rfl

theorem Sweeps.sound (h : Sweeps env time l s plans vs l' s') : ∀ v ∈ vs, v.Sound := by
  induction h with
  | finished => simp
  | aborted => simp
  | unreadable _ _ ih =>
    intro v hv
    obtain rfl | hv := List.mem_cons.mp hv
    · constructor
      · simp
      · intro r hr
        cases hr
    · exact ih v hv
  | @taken l l' s u s' plan plans tracks t b w files vs hread htask hlive hb happend hrest ih =>
    intro v hv
    obtain rfl | hv := List.mem_cons.mp hv
    · have ht := task?_fresh htask
      have hfrom := settleGroup_from (s := u.look) env ht
      constructor
      · rw [ne_eq, ← task?_eq_none plan, htask]
        simp
      · intro r hr
        obtain rfl : b.report = r := Option.some.inj hr
        rw [hb, conclude_key hfrom ht.origin ht.tracks, task?_key htask]
    · exact ih v hv

/-- Groups are visited in order, and all of them, unless the sweep was aborted. -/
theorem Sweeps.visits (h : Sweeps env time l s plans vs l' s') :
    vs.map (·.plan) <+: plans ∧ (vs.map (·.plan) = plans ∨ s'.aborted = true) := by
  induction h with
  | finished => exact ⟨List.nil_prefix, .inl rfl⟩
  | aborted _ _ haborted => exact ⟨List.nil_prefix, .inr haborted⟩
  | unreadable _ _ ih | taken _ _ _ _ _ _ ih =>
    obtain ⟨hinit, hall⟩ := ih
    constructor
    · exact (List.prefix_cons_inj _).mpr hinit
    · exact hall.imp_left fun hall => congrArg _ hall

/-- What is reported stands in the journal, as long as nothing but the bookings touches it. -/
theorem Sweeps.journal (h : Sweeps env time l s plans vs l' s') {bytes : List UInt8}
    (hjournal : s.files.read l.writer.path = .ok ⟨bytes.toArray⟩) (hend : l.writer.position = bytes.length)
    (hspared : ∀ v ∈ vs, ∀ b, v.booking = some b →
      b.closing.files.read l.writer.path = b.before.files.read l.writer.path) :
    s'.files.read l.writer.path = .ok ⟨(bytes ++ ((vs.filterMap (·.report?)).map
      (·.journalEntry time)).flatMap ResumeEntry.bytes).toArray⟩ := by
  -- Reading tags changes no file, so the journal is as the group before left it.
  induction h generalizing bytes with
  | finished => simpa using hjournal
  | @aborted l s u plan plans tracks t hread =>
    have hu := ((readGroup_consults env plan.files).result hread).trans (look_consults u)
    simpa [hu.files] using hjournal
  | @unreadable l l' s u s' plan plans vs hread hrest ih =>
    have hu := (readGroup_consults env plan.files).result hread
    exact ih (by rw [hu.files, hjournal]) hend fun v hv => hspared v (.tail _ hv)
  | @taken l l' s u s' plan plans tracks t b w files vs hread htask hlive hb happend hrest ih =>
    have hu := ((readGroup_consults env plan.files).result hread).trans (look_consults u)
    have hbefore : b.before.files = s.files := by
      rw [← hu.files, hb]
      rfl
    have hclosing : b.closing.files.read l.writer.path = .ok ⟨bytes.toArray⟩ := by
      rw [hspared _ (.head _) b rfl, hbefore, hjournal]
    obtain ⟨files', happend', hread'⟩ := JournalWriter.append_at_end hclosing hend (b.entry time)
    obtain ⟨rfl, rfl⟩ : _ = w ∧ files' = files := by simpa [happend'] using happend
    have hall := ih hread' (by simp) fun v hv => hspared v (.tail _ hv)
    simpa [Visit.report?, Booking.entry] using hall

end Session
end MusicImport

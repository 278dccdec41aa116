import MusicImport.Session.Basic

/-! Running steps of an import. `doing` and `trying` tell the answer of a step and the session that it
leaves, and go through a composed step piece by piece. -/
namespace MusicImport
namespace Session

variable {ε ε' α β : Type} {s s' : Session}

/-- What a step answers and the session it leaves. -/
def doing (s : Session) (x : Act α) : α × Session := x s

/-- What an attempt answers and the session it leaves. -/
def trying (s : Session) (x : Attempt ε α) : Except ε α × Session := x s

theorem toOption_eq_some {x : Except ε α} {a : α} : x.toOption = some a ↔ x = .ok a := by
  cases x with
  | ok b => exact ⟨fun h => congrArg _ (Option.some.inj h), fun h => congrArg _ (Except.ok.inj h)⟩
  | error e => constructor <;> rintro ⟨⟩

@[simp] theorem doing_pure (a : α) : s.doing (pure a) = (a, s) := rfl

@[simp] theorem doing_bind (x : Act α) (f : α → Act β) :
    s.doing (x >>= f) = (s.doing x).2.doing (f (s.doing x).1) := rfl

@[simp] theorem doing_map (g : α → β) (x : Act α) :
    s.doing (g <$> x) = (g (s.doing x).1, (s.doing x).2) := rfl

@[simp] theorem doing_get : s.doing (get : Act Session) = (s, s) := rfl

@[simp] theorem doing_set (s' : Session) : s.doing (set s' : Act Unit) = ((), s') := rfl

@[simp] theorem doing_modify (f : Session → Session) :
    s.doing (modify f : Act Unit) = ((), f s) := rfl

@[simp] theorem doing_run (x : Attempt ε α) : s.doing x.run = s.trying x := rfl

@[simp] theorem doing_isAborted : s.doing isAborted = (s.look.aborted, s.look) := rfl

/-- An abort that is raised is seen. -/
theorem look_aborted (h : s.aborted = true) : s.look.aborted = true := by
  unfold look
  split
  · rfl
  · exact h
  · exact h

@[simp] theorem trying_pure (a : α) : s.trying (pure a : Attempt ε α) = (.ok a, s) := rfl

@[simp] theorem trying_throw (e : ε) : s.trying (throw e : Attempt ε α) = (.error e, s) := rfl

@[simp] theorem trying_get : s.trying (get : Attempt ε Session) = (.ok s, s) := rfl

@[simp] theorem trying_set (s' : Session) : s.trying (set s' : Attempt ε Unit) = (.ok (), s') := rfl

@[simp] theorem trying_modify (f : Session → Session) :
    s.trying (modify f : Attempt ε Unit) = (.ok (), f s) := rfl

@[simp] theorem trying_liftM (x : Act α) :
    s.trying (liftM x : Attempt ε α) = (.ok (s.doing x).1, (s.doing x).2) := rfl

@[simp] theorem trying_liftExcept (x : Except ε α) :
    s.trying (liftExcept x : Attempt ε α) = (x, s) := by cases x <;> rfl

@[simp] theorem trying_except (x : Except ε α) :
    s.trying (liftM x : Attempt ε α) = (x, s) := by cases x <;> rfl

@[simp] theorem trying_adapt (g : ε → ε') (x : Attempt ε α) :
    s.trying (x.adapt g) = ((s.trying x).1.mapError g, (s.trying x).2) := rfl

theorem trying_bind (x : Attempt ε α) (f : α → Attempt ε β) :
    s.trying (x >>= f) = match s.trying x with
      | (.ok a, u) => u.trying (f a)
      | (.error e, u) => (.error e, u) := by
  simp only [trying, bind, ExceptT.bind, ExceptT.mk, StateT.bind, ExceptT.bindCont]
  rcases h : x s with ⟨_ | _, _⟩ <;> rfl

theorem trying_tryCatch (x : Attempt ε α) (f : ε → Attempt ε α) :
    s.trying (tryCatch x f) = match s.trying x with
      | (.ok a, u) => (.ok a, u)
      | (.error e, u) => u.trying (f e) := by
  simp only [trying, tryCatch, tryCatchThe, MonadExceptOf.tryCatch, ExceptT.tryCatch, ExceptT.mk,
    bind, StateT.bind]
  rcases h : x s with ⟨_ | _, _⟩ <;> rfl

/-- A composed attempt succeeds where both of its parts do. -/
theorem trying_bind_ok {x : Attempt ε α} {f : α → Attempt ε β} {b : β} :
    s.trying (x >>= f) = (.ok b, s') ↔
      ∃ a u, s.trying x = (.ok a, u) ∧ u.trying (f a) = (.ok b, s') := by
  rw [trying_bind]
  rcases s.trying x with ⟨_ | a, u⟩
  · simp
  · constructor
    · exact fun h => ⟨a, u, rfl, h⟩
    · rintro ⟨_, _, ⟨rfl, rfl⟩, h⟩
      exact h

/-- A composed attempt fails where its first part does, or its second part after the first. -/
theorem trying_bind_error {x : Attempt ε α} {f : α → Attempt ε β} {e : ε} :
    s.trying (x >>= f) = (.error e, s') ↔
      s.trying x = (.error e, s') ∨
        ∃ a u, s.trying x = (.ok a, u) ∧ u.trying (f a) = (.error e, s') := by
  rw [trying_bind]
  rcases s.trying x with ⟨_ | a, u⟩
  · simp
  · constructor
    · exact fun h => .inr ⟨a, u, rfl, h⟩
    · rintro (h | ⟨_, _, ⟨rfl, rfl⟩, h⟩)
      · cases h
      · exact h

theorem trying_adapt_ok {g : ε → ε'} {x : Attempt ε α} {a : α} :
    s.trying (x.adapt g) = (.ok a, s') ↔ s.trying x = (.ok a, s') := by
  rw [trying_adapt]
  rcases s.trying x with ⟨_ | b, u⟩
  · constructor <;> rintro ⟨⟩
  · constructor <;> rintro ⟨⟩ <;> rfl

theorem trying_adapt_error {g : ε → ε'} {x : Attempt ε α} {e' : ε'} :
    s.trying (x.adapt g) = (.error e', s') ↔ ∃ e, s.trying x = (.error e, s') ∧ e' = g e := by
  rw [trying_adapt]
  rcases s.trying x with ⟨f | a, u⟩
  · constructor
    · rintro ⟨rfl, rfl⟩
      exact ⟨f, rfl, rfl⟩
    · rintro ⟨_, ⟨rfl, rfl⟩, rfl⟩
      rfl
  · constructor
    · rintro ⟨⟩
    · rintro ⟨_, ⟨⟩, -⟩

/-- Whatever a relation says of the sessions before and after single steps, it says of those before
and after a sequence of them. -/
structure Steady (R : Session → Session → Prop) : Prop where
  refl : ∀ s, R s s
  trans : ∀ {s u v}, R s u → R u v → R s v

/-- A step takes every session to a related one. -/
def Does (R : Session → Session → Prop) (x : Act α) : Prop := ∀ s, R s (s.doing x).2

/-- An attempt takes every session to a related one, also where it fails. -/
def Tries (R : Session → Session → Prop) (x : Attempt ε α) : Prop := ∀ s, R s (s.trying x).2

variable {R : Session → Session → Prop}

theorem Tries.result {x : Attempt ε α} (h : Tries R x) {r : Except ε α}
    (hx : s.trying x = (r, s')) : R s s' := by
  have := h s
  rwa [hx] at this

theorem Does.result {x : Act α} (h : Does R x) {a : α} (hx : s.doing x = (a, s')) : R s s' := by
  have := h s
  rwa [hx] at this

namespace Steady

theorem does_pure (hR : Steady R) (a : α) : Does R (pure a) := fun s => hR.refl s

theorem does_bind (hR : Steady R) {x : Act α} {f : α → Act β} (hx : Does R x)
    (hf : ∀ a, Does R (f a)) : Does R (x >>= f) := fun s => hR.trans (hx s) (hf _ _)

theorem tries_get (hR : Steady R) : Tries R (get : Attempt ε Session) := fun s => hR.refl s

theorem tries_pure (hR : Steady R) (a : α) : Tries R (pure a : Attempt ε α) := fun s => hR.refl s

theorem tries_throw (hR : Steady R) (e : ε) : Tries R (throw e : Attempt ε α) :=
  fun s => hR.refl s

theorem tries_bind (hR : Steady R) {x : Attempt ε α} {f : α → Attempt ε β} (hx : Tries R x)
    (hf : ∀ a, Tries R (f a)) : Tries R (x >>= f) := by
  intro s
  rw [trying_bind]
  have h := hx s
  rcases hs : s.trying x with ⟨_ | a, u⟩
  · simpa [hs] using h
  · rw [hs] at h
    exact hR.trans h (hf a u)

theorem tries_tryCatch (hR : Steady R) {x : Attempt ε α} {f : ε → Attempt ε α} (hx : Tries R x)
    (hf : ∀ e, Tries R (f e)) : Tries R (tryCatch x f) := by
  intro s
  rw [trying_tryCatch]
  have h := hx s
  rcases hs : s.trying x with ⟨e | _, u⟩
  · rw [hs] at h
    exact hR.trans h (hf e u)
  · simpa [hs] using h

end Steady

theorem Tries.adapt {x : Attempt ε α} (h : Tries R x) (g : ε → ε') : Tries R (x.adapt g) := h

theorem Tries.run {x : Attempt ε α} (h : Tries R x) : Does R x.run := h

theorem Does.lift {x : Act α} (h : Does R x) : Tries R (liftM x : Attempt ε α) := h

theorem Steady.tries_except (hR : Steady R) (x : Except ε α) :
    Tries R (liftM x : Attempt ε α) := by
  intro s
  rw [trying_except]
  exact hR.refl s

/-- From every session, what an attempt answers or fails with meets a condition. -/
def Yields (P : α → Prop) (Q : ε → Prop) (x : Attempt ε α) : Prop :=
  ∀ s : Session, match (s.trying x).1 with
    | .ok a => P a
    | .error e => Q e

namespace Yields

variable {P : α → Prop} {P' : β → Prop} {Q : ε → Prop} {Q' : ε' → Prop}

theorem ok {x : Attempt ε α} (h : Yields P Q x) {a : α} (hx : s.trying x = (.ok a, s')) : P a := by
  have := h s
  rwa [hx] at this

theorem error {x : Attempt ε α} (h : Yields P Q x) {e : ε} (hx : s.trying x = (.error e, s')) :
    Q e := by
  have := h s
  rwa [hx] at this

theorem of_pure {a : α} (h : P a) : Yields P Q (pure a) := fun _ => h

theorem of_throw {e : ε} (h : Q e) : Yields P Q (throw e) := fun _ => h

theorem bind {x : Attempt ε α} {f : α → Attempt ε β} (hx : Yields P Q x)
    (hf : ∀ a, P a → Yields P' Q (f a)) : Yields P' Q (x >>= f) := by
  intro s
  rw [trying_bind]
  rcases hs : s.trying x with ⟨e | a, u⟩
  · exact hx.error hs
  · exact hf a (hx.ok hs) u

/-- An act fails with nothing. -/
theorem of_lift (x : Act α) : Yields (fun _ => True) Q (liftM x : Attempt ε α) := fun _ => trivial

theorem of_get : Yields (fun _ => True) Q (get : Attempt ε Session) := fun _ => trivial

theorem imp {R : α → Prop} {Q' : ε → Prop} {x : Attempt ε α} (h : Yields P Q x)
    (hP : ∀ a, P a → R a) (hQ : ∀ e, Q e → Q' e) : Yields R Q' x := by
  intro s
  rcases hs : s.trying x with ⟨e | a, u⟩
  · exact hQ e (h.error hs)
  · exact hP a (h.ok hs)

theorem mono {R : α → Prop} {x : Attempt ε α} (h : Yields P Q x) (hP : ∀ a, P a → R a) :
    Yields R Q x := h.imp hP fun _ he => he

/-- What never fails meets every condition on its failures. -/
theorem never {x : Attempt ε α} (h : Yields P (fun _ => False) x) : Yields P Q x :=
  h.imp (fun _ ha => ha) fun _ => False.elim

theorem tryCatch {Q' : ε → Prop} {x : Attempt ε α} {f : ε → Attempt ε α} (hx : Yields P Q x)
    (hf : ∀ e, Q e → Yields P Q' (f e)) : Yields P Q' (MonadExcept.tryCatch x f) := by
  intro s
  rw [trying_tryCatch]
  rcases hs : s.trying x with ⟨e | a, u⟩
  · exact hf e (hx.error hs) u
  · exact hx.ok hs

theorem adapt {g : ε → ε'} {x : Attempt ε α} (h : Yields P Q x) (hQ : ∀ e, Q e → Q' (g e)) :
    Yields P Q' (x.adapt g) := by
  intro s
  rw [trying_adapt]
  rcases hs : s.trying x with ⟨e | a, u⟩
  · exact hQ e (h.error hs)
  · exact h.ok hs

end Yields

/-- Later steps may rely on what the first one yields. -/
theorem Steady.tries_bind_of (hR : Steady R) {P : α → Prop} {Q : ε → Prop} {x : Attempt ε α}
    {f : α → Attempt ε β} (hx : Tries R x) (hP : Yields P Q x) (hf : ∀ a, P a → Tries R (f a)) :
    Tries R (x >>= f) := by
  intro s
  rw [trying_bind]
  have h := hx s
  rcases hs : s.trying x with ⟨e | a, u⟩
  · simpa [hs] using h
  · rw [hs] at h
    exact hR.trans h (hf a (hP.ok hs) u)

end Session
end MusicImport

import Interop.Logged
import Interop.Proofs.Except

/-! Laws of computations with a log. A computation that succeeds is taken apart step by step:
each of its steps succeeded, and the log is what the steps logged, in order. -/

namespace Interop

namespace Logged

variable {ω ε α β : Type}

theorem id_map (x : Logged ω ε α) : id <$> x = x := by
  rcases x with ⟨log, result⟩
  cases result <;> simp [Functor.map, Logged.bind, Logged.pure]

theorem pure_bind (a : α) (f : α → Logged ω ε β) : Pure.pure a >>= f = f a := by
  simp [Bind.bind, Pure.pure, Logged.bind, Logged.pure]

theorem bind_assoc {γ : Type} (x : Logged ω ε α) (f : α → Logged ω ε β) (g : β → Logged ω ε γ) :
    x >>= f >>= g = x >>= fun a => f a >>= g := by
  rcases x with ⟨log, result⟩
  cases result with
  | error e => rfl
  | ok a =>
    rcases h : f a with ⟨next, outcome⟩
    cases outcome <;> simp [Bind.bind, Logged.bind, h]

instance : LawfulMonad (Logged ω ε) := .mk' _ id_map pure_bind bind_assoc

theorem result_bind (x : Logged ω ε α) (f : α → Logged ω ε β) :
    (x >>= f).result = x.result.bind fun a => (f a).result := by
  rcases x with ⟨log, result⟩
  cases result <;> rfl

theorem result_map (x : Logged ω ε α) (s : α → β) : (s <$> x).result = x.result.map s := by
  rcases x with ⟨log, result⟩
  cases result <;> rfl

theorem log_map (x : Logged ω ε α) (s : α → β) : (s <$> x).log = x.log := by
  rcases x with ⟨log, result⟩
  cases result with
  | error e => rfl
  | ok a => exact List.append_nil log

/-- Two computations that begin alike and go on alike, but for their results. -/
theorem bind_eq_map {β' : Type} {s : β → β'} {x y : Logged ω ε α} {f : α → Logged ω ε β}
    {g : α → Logged ω ε β'} (hfirst : y = x) (hrest : ∀ a, g a = s <$> f a) :
    y >>= g = s <$> (x >>= f) := by
  rw [hfirst, map_bind, funext hrest]

/-- Two computations that begin with one result and go on to one outcome, whatever they log. -/
theorem sameOutcome_bind {β' : Type} {R : β → β' → Prop} {x y : Logged ω ε α}
    {f : α → Logged ω ε β} {g : α → Logged ω ε β'} (hfirst : y.result = x.result)
    (hrest : ∀ a, SameOutcome R (f a).result (g a).result) :
    SameOutcome R (x >>= f).result (y >>= g).result := by
  rw [result_bind, result_bind, hfirst]
  cases x.result with
  | error e => exact .error e
  | ok a => exact hrest a

/-- What follows a computation matters only for the results that it can have. -/
theorem bind_congr {x : Logged ω ε α} {f g : α → Logged ω ε β}
    (h : ∀ a, x.result = .ok a → f a = g a) : x >>= f = x >>= g := by
  rcases x with ⟨log, result⟩
  cases result with
  | error e => rfl
  | ok a => simp only [Bind.bind, Logged.bind, h a rfl]

theorem mapM_congr {f g : α → Logged ω ε β} {xs : List α} (h : ∀ x ∈ xs, f x = g x) :
    xs.mapM f = xs.mapM g := by
  induction xs with
  | nil => rw [List.mapM_nil, List.mapM_nil]
  | cons x xs ih =>
    rw [List.mapM_cons, List.mapM_cons, h x (by simp), ih fun y hy => h y (by simp [hy])]

/-- Inversion for `bind`. -/
theorem bind_ok {x : Logged ω ε α} {f : α → Logged ω ε β} {b : β}
    (h : (x >>= f).result = .ok b) : ∃ a, x.result = .ok a ∧ (f a).result = .ok b := by
  rw [result_bind] at h
  cases hx : x.result with
  | error e => rw [hx] at h; cases h
  | ok a => rw [hx] at h; exact ⟨a, rfl, h⟩

/-- Inversion for `bind`, together with the log: the log of what came first is in front. -/
theorem bind_eq_ok {x : Logged ω ε α} {f : α → Logged ω ε β} {log : List ω} {b : β}
    (h : x >>= f = { log, result := .ok b }) :
    ∃ a first rest, x = { log := first, result := .ok a } ∧
      f a = { log := rest, result := .ok b } ∧ log = first ++ rest := by
  rcases x with ⟨first, result⟩
  cases result with
  | error e => cases congrArg Logged.result h
  | ok a =>
    refine ⟨a, first, (f a).log, rfl, ?_, (congrArg Logged.log h).symm⟩
    rw [← show (f a).result = .ok b from congrArg Logged.result h]

/-- Inversion for `pure`. -/
theorem pure_ok {a b : α} (h : (Pure.pure a : Logged ω ε α).result = .ok b) : a = b :=
  Except.ok.inj h

theorem bind_ok_iff {x : Logged ω ε α} {f : α → Logged ω ε β} {b : β} :
    (x >>= f).result = .ok b ↔ ∃ a, x.result = .ok a ∧ (f a).result = .ok b := by
  refine ⟨bind_ok, ?_⟩
  rintro ⟨a, hx, hf⟩
  rw [result_bind, hx]
  exact hf

theorem pure_ok_iff {a b : α} : (Pure.pure a : Logged ω ε α).result = .ok b ↔ a = b :=
  ⟨pure_ok, congrArg Except.ok⟩

theorem fail_ok_iff {e : ε} {a : α} : (fail e : Logged ω ε α).result = .ok a ↔ False :=
  iff_of_false nofun id

/-- A result that comes only of finding something, and only of finding this. -/
theorem bind_found_ok_iff {x : Logged ω ε (Option α)} {f : Option α → Logged ω ε β} {a : α} {b : β}
    (hsome : ∀ found, (f (some found)).result = .ok b ↔ found = a)
    (hnone : (f none).result ≠ .ok b) : (x >>= f).result = .ok b ↔ x.result = .ok (some a) := by
  rw [bind_ok_iff]
  constructor
  · rintro ⟨found, hfound, h⟩
    cases found with
    | none => exact absurd h hnone
    | some found => rw [hfound, (hsome found).mp h]
  · intro h
    exact ⟨some a, h, (hsome a).mpr rfl⟩

/-- Inversion for `mapM`: every element was mapped with success. -/
theorem mapM_ok {f : α → Logged ω ε β} {xs : List α} {ys : List β}
    (h : (xs.mapM f).result = .ok ys) :
    List.Forall₂ (fun x y => (f x).result = .ok y) xs ys := by
  induction xs generalizing ys with
  | nil =>
    rw [List.mapM_nil] at h
    rw [← pure_ok h]
    exact .nil
  | cons x xs ih =>
    rw [List.mapM_cons] at h
    obtain ⟨y, hy, h⟩ := bind_ok h
    obtain ⟨rest, hrest, h⟩ := bind_ok h
    rw [← pure_ok h]
    exact .cons hy (ih hrest)

theorem exists_of_mem_mapM {f : α → Logged ω ε β} {xs : List α} {ys : List β} {y : β}
    (h : (xs.mapM f).result = .ok ys) (hy : y ∈ ys) : ∃ x ∈ xs, (f x).result = .ok y := by
  obtain ⟨x, hx, hok⟩ := exists_of_mem_forall₂ (mapM_ok h) hy
  exact ⟨x, hx, hok⟩

/-! ## Other entries in the log -/

variable {ω' : Type}

/-- Replaces every entry of the log. -/
def mapLog (f : ω → ω') (x : Logged ω ε α) : Logged ω' ε α := { x with log := x.log.map f }

@[simp] theorem mapLog_ofExcept (f : ω → ω') (result : Except ε α) :
    (ofExcept result : Logged ω ε α).mapLog f = ofExcept result := rfl

@[simp] theorem mapLog_bind (f : ω → ω') (x : Logged ω ε α) (g : α → Logged ω ε β) :
    (x >>= g).mapLog f = x.mapLog f >>= fun a => (g a).mapLog f := by
  rcases x with ⟨log, result⟩
  cases result <;> simp [Bind.bind, Logged.bind, mapLog]

/-! ## Other entries, errors and results -/

variable {ε' α' β' : Type} {p : ω → ω'} {q : ε → ε'}

/-- Replaces every entry of the log, and the error or the result. -/
def mapAll (p : ω → ω') (q : ε → ε') (s : α → α') (x : Logged ω ε α) : Logged ω' ε' α' :=
  { log := x.log.map p, result := (x.result.map s).mapError q }

@[simp] theorem mapAll_pure (s : α → α') (a : α) :
    (Pure.pure a : Logged ω ε α).mapAll p q s = Pure.pure (s a) := rfl

/-- Two computations correspond if their first steps do and, for each result of the first steps,
what comes after them. -/
theorem bind_mapAll {s : α → α'} {t : β → β'} {x : Logged ω ε α} {y : Logged ω' ε' α'}
    {f : α → Logged ω ε β} {g : α' → Logged ω' ε' β'} (hfirst : y = x.mapAll p q s)
    (hrest : ∀ a, g (s a) = (f a).mapAll p q t) : y >>= g = (x >>= f).mapAll p q t := by
  subst hfirst
  rcases x with ⟨log, result⟩
  cases result with
  | error e => rfl
  | ok a =>
    have hnext := hrest a
    show Logged.mk (log.map p ++ (g (s a)).log) (g (s a)).result = _
    rw [hnext]
    show _ = Logged.mk ((log ++ (f a).log).map p) _
    rw [List.map_append]
    rfl

theorem mapM_mapAll {s : α → α'} {t : β → β'} {f : α → Logged ω ε β}
    {g : α' → Logged ω' ε' β'} {xs : List α} (h : ∀ x ∈ xs, g (s x) = (f x).mapAll p q t) :
    (xs.map s).mapM g = (xs.mapM f).mapAll p q (List.map t) := by
  induction xs with
  | nil => rw [List.map_nil, List.mapM_nil, List.mapM_nil, mapAll_pure, List.map_nil]
  | cons x xs ih =>
    have hrest := ih fun other hother => h other (List.mem_cons_of_mem x hother)
    rw [List.map_cons, List.mapM_cons, List.mapM_cons]
    refine bind_mapAll (h x List.mem_cons_self) fun a => ?_
    exact bind_mapAll hrest fun as => rfl

/-! ## Computations that survive -/

/-- If the first computation succeeds, the second is the same. -/
def Persists (x y : Logged ω ε α) : Prop := ∀ a, x.result = .ok a → y = x

theorem Persists.refl (x : Logged ω ε α) : Persists x x := fun _ _ => rfl

theorem Persists.fail (e : ε) (y : Logged ω ε α) : Persists (fail e) y := nofun

theorem Persists.bind {x y : Logged ω ε α} {f g : α → Logged ω ε β} (hfirst : Persists x y)
    (hrest : ∀ a, x.result = .ok a → Persists (f a) (g a)) : Persists (x >>= f) (y >>= g) := by
  intro b h
  obtain ⟨a, hx, hf⟩ := bind_ok h
  obtain rfl := hfirst a hx
  refine bind_congr fun a' hx' => ?_
  obtain rfl : a = a' := Except.ok.inj (hx.symm.trans hx')
  exact hrest a hx b hf

theorem Persists.mapError {x y : Logged ω ε α} (h : Persists x y) (q : ε → ε) :
    Persists (x.mapError q) (y.mapError q) := by
  intro a ha
  rcases x with ⟨log, e | a'⟩
  · cases ha
  · rw [h a' rfl]

theorem Persists.mapM {f g : α → Logged ω ε β} {xs : List α}
    (h : ∀ x ∈ xs, Persists (f x) (g x)) : Persists (xs.mapM f) (xs.mapM g) := by
  induction xs with
  | nil => exact .refl _
  | cons x xs ih =>
    have hrest := ih fun other hother => h other (List.mem_cons_of_mem x hother)
    rw [List.mapM_cons, List.mapM_cons]
    refine (h x List.mem_cons_self).bind fun y _ => ?_
    exact hrest.bind fun ys _ => .refl _

theorem Persists.mapM_option {f g : α → Logged ω ε β} (choice : Option α)
    (h : ∀ a, Persists (f a) (g a)) : Persists (choice.mapM f) (choice.mapM g) := by
  cases choice with
  | none => exact .refl _
  | some a => exact (h a).bind fun b _ => .refl _

end Logged

end Interop

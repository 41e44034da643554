import Tim.Lib.Pool

/-!
# `Tim.Lib.Solo`: one program alone on a machine

`Tim.Lib.Pool` runs many programs in any interleaving. A fact about one operation, from the state
before it to the state after it, is about a run of one program with no other in between.
`Solo E tid p s x s'` says that `p`, run as the task `tid` of the machine, can start in `s` and end
in `s'` with the result `x`. The surroundings `E` say how the state may move between two calls, for
instance by the clock, and which choices a call may meet, for instance no failure.

`Ensures` is the reading over all such runs: every one of them ends as the postcondition says.
Its rules follow the constructors of a program, and `ensures_handle` composes. `play` computes the
run of a list of choices, so that a run can be shown to exist by evaluation.
-/

set_option autoImplicit false

namespace Tim.Lib

/-- What may happen around a program that runs alone: moves of the state between two calls, and
the choices that a call can meet. -/
structure Surroundings {S : Sig} (M : Machine S) where
  moves : M.State → M.State → Prop
  allows : M.Choice → Prop

namespace Prog

variable {S : Sig} {ε ε' α β : Type}

variable {M : Machine S}

/-- The program `p` can run alone from `s` to `s'` and end with `x`. -/
def Solo (E : Surroundings M) (tid : Nat) :
    Prog S ε α → M.State → Except ε α → M.State → Prop
  | .ret a, s, x, s' => x = .ok a ∧ s' = s
  | .raise e, s, x, s' => x = .error e ∧ s' = s
  | .op o k, s, x, s' => ∃ s₁ ch r s₂, E.moves s s₁ ∧ E.allows ch
      ∧ M.exec tid s₁ o ch = some (r, s₂) ∧ Solo E tid (k r) s₂ x s'

/-- Every run of `p` alone from `s` ends as `Q` says. -/
def Ensures (E : Surroundings M) (tid : Nat) (p : Prog S ε α) (s : M.State)
    (Q : Except ε α → M.State → Prop) : Prop :=
  ∀ x s', p.Solo E tid s x s' → Q x s'

variable {E : Surroundings M} {tid : Nat}

/-! ### Runs of a composition -/

/-- A run of a composition is a run of its first part and then one of the rest. -/
theorem solo_handle {p : Prog S ε α} {f : α → Prog S ε' β} {g : ε → Prog S ε' β}
    {s s' : M.State} {x : Except ε' β} :
    (p.handle f g).Solo E tid s x s'
      ↔ ∃ y s₁, p.Solo E tid s y s₁ ∧ (resume f g y).Solo E tid s₁ x s' := by
  induction p generalizing s with
  | ret a =>
      constructor
      · intro h
        exact ⟨.ok a, s, ⟨rfl, rfl⟩, h⟩
      · rintro ⟨y, s₁, ⟨rfl, rfl⟩, h⟩
        exact h
  | raise e =>
      constructor
      · intro h
        exact ⟨.error e, s, ⟨rfl, rfl⟩, h⟩
      · rintro ⟨y, s₁, ⟨rfl, rfl⟩, h⟩
        exact h
  | op o k ih =>
      constructor
      · rintro ⟨s₁, ch, r, s₂, hmove, hallow, hexec, h⟩
        obtain ⟨y, s₃, hp, hrest⟩ := (ih r).mp h
        exact ⟨y, s₃, ⟨s₁, ch, r, s₂, hmove, hallow, hexec, hp⟩, hrest⟩
      · rintro ⟨y, s₃, ⟨s₁, ch, r, s₂, hmove, hallow, hexec, hp⟩, hrest⟩
        exact ⟨s₁, ch, r, s₂, hmove, hallow, hexec, (ih r).mpr ⟨y, s₃, hp, hrest⟩⟩

/-- A run of two programs is one of the first, and then one of whatever its result leads to. -/
theorem solo_bind {p : Prog S ε α} {f : α → Prog S ε β} {s s' : M.State} {x : Except ε β} :
    (p >>= f).Solo E tid s x s'
      ↔ ∃ y s₁, p.Solo E tid s y s₁ ∧ (resume f .raise y).Solo E tid s₁ x s' :=
  solo_handle

/-- More may happen in wider surroundings. -/
theorem Solo.mono {E' : Surroundings M} {p : Prog S ε α} {s s' : M.State} {x : Except ε α}
    (h : p.Solo E tid s x s') (hmove : ∀ s s', E.moves s s' → E'.moves s s')
    (hallow : ∀ ch, E.allows ch → E'.allows ch) : p.Solo E' tid s x s' := by
  induction p generalizing s with
  | ret a => exact h
  | raise e => exact h
  | op o k ih =>
      obtain ⟨s₁, ch, r, s₂, hm, ha, hexec, hrest⟩ := h
      exact ⟨s₁, ch, r, s₂, hmove _ _ hm, hallow _ ha, hexec, ih r hrest⟩

/-! ### Postconditions -/

variable {Q : Except ε α → M.State → Prop} {s : M.State}

/-- A result has to be what is ensured in the state at hand. -/
theorem ensures_ret {a : α} : (Prog.ret a : Prog S ε α).Ensures E tid s Q ↔ Q (.ok a) s := by
  constructor
  · intro h
    exact h _ _ ⟨rfl, rfl⟩
  · rintro h x s' ⟨rfl, rfl⟩
    exact h

/-- An error has to be what is ensured in the state at hand. -/
theorem ensures_raise {e : ε} :
    (Prog.raise e : Prog S ε α).Ensures E tid s Q ↔ Q (.error e) s := by
  constructor
  · intro h
    exact h _ _ ⟨rfl, rfl⟩
  · rintro h x s' ⟨rfl, rfl⟩
    exact h

/-- A call is made in any state that the surroundings move to, with any choice that they allow. -/
theorem ensures_op {o : S.Op} {k : S.Resp o → Prog S ε α} :
    (Prog.op o k).Ensures E tid s Q
      ↔ ∀ s₁ ch r s₂, E.moves s s₁ → E.allows ch → M.exec tid s₁ o ch = some (r, s₂) →
        (k r).Ensures E tid s₂ Q := by
  constructor
  · intro h s₁ ch r s₂ hmove hallow hexec x s' hrun
    exact h x s' ⟨s₁, ch, r, s₂, hmove, hallow, hexec, hrun⟩
  · rintro h x s' ⟨s₁, ch, r, s₂, hmove, hallow, hexec, hrun⟩
    exact h s₁ ch r s₂ hmove hallow hexec x s' hrun

/-- The rule of sequential composition. -/
theorem ensures_handle {Q : Except ε' β → M.State → Prop} {p : Prog S ε α}
    {f : α → Prog S ε' β} {g : ε → Prog S ε' β} :
    (p.handle f g).Ensures E tid s Q
      ↔ p.Ensures E tid s fun y s₁ => (resume f g y).Ensures E tid s₁ Q := by
  constructor
  · intro h y s₁ hp x s' hrest
    exact h x s' (solo_handle.mpr ⟨y, s₁, hp, hrest⟩)
  · intro h x s' hrun
    obtain ⟨y, s₁, hp, hrest⟩ := solo_handle.mp hrun
    exact h y s₁ hp x s' hrest

/-- The rule of two programs in a row. -/
theorem ensures_bind {Q : Except ε β → M.State → Prop} {p : Prog S ε α} {f : α → Prog S ε β} :
    (p >>= f).Ensures E tid s Q
      ↔ p.Ensures E tid s fun y s₁ => (resume f .raise y).Ensures E tid s₁ Q :=
  ensures_handle

/-- The rule of consequence. -/
theorem Ensures.mono {Q' : Except ε α → M.State → Prop} {p : Prog S ε α}
    (h : p.Ensures E tid s Q) (hQ : ∀ x s', Q x s' → Q' x s') : p.Ensures E tid s Q' :=
  fun x s' hrun => hQ x s' (h x s' hrun)

/-- A program whose results all meet `ψ`, whatever it is answered, ends so in every run. -/
theorem Meets.ensures {φ : S.Op → Prop} {ψ : Except ε α → Prop} {p : Prog S ε α}
    (h : p.Meets φ ψ) : p.Ensures E tid s fun x _ => ψ x := by
  induction p generalizing s with
  | ret a => exact ensures_ret.mpr h
  | raise e => exact ensures_raise.mpr h
  | op o k ih => exact ensures_op.mpr fun s₁ ch r s₂ _ _ _ => ih r (h.2 r)

/-- A program ends, if each of its calls can be answered where an invariant holds and the answer
keeps the invariant. -/
theorem Meets.exists_end {φ : S.Op → Prop} {ψ : Except ε α → Prop} {p : Prog S ε α}
    {I : M.State → Prop} (h : p.Meets φ ψ) (hs : I s)
    (hcall : ∀ s o, I s → φ o → ∃ s₁ ch r s₂, E.moves s s₁ ∧ E.allows ch
      ∧ M.exec tid s₁ o ch = some (r, s₂) ∧ I s₂) : ∃ x s', p.Solo E tid s x s' := by
  induction p generalizing s with
  | ret a => exact ⟨.ok a, s, rfl, rfl⟩
  | raise e => exact ⟨.error e, s, rfl, rfl⟩
  | op o k ih =>
      obtain ⟨s₁, ch, r, s₂, hmove, hallow, hexec, hs₂⟩ := hcall s o hs h.1
      obtain ⟨x, s', hrest⟩ := ih r (h.2 r) hs₂
      exact ⟨x, s', s₁, ch, r, s₂, hmove, hallow, hexec, hrest⟩

/-! ### Runs by a list of choices -/

/-- The run in which the calls meet the given choices and nothing moves in between. -/
def play (M : Machine S) (tid : Nat) :
    Prog S ε α → M.State → List M.Choice → Option (Except ε α × M.State)
  | .ret a, s, [] => some (.ok a, s)
  | .raise e, s, [] => some (.error e, s)
  | .op o k, s, ch :: chs => (M.exec tid s o ch).bind fun y => (k y.1).play M tid y.2 chs
  | _, _, _ => none

/-- A list of choices that plays the program to its end is a run, in surroundings that may stay
still and allow these choices. -/
theorem solo_of_play {p : Prog S ε α} {s s' : M.State} {x : Except ε α} {chs : List M.Choice}
    (hmove : ∀ s, E.moves s s) (hallow : ∀ ch ∈ chs, E.allows ch)
    (h : p.play M tid s chs = some (x, s')) : p.Solo E tid s x s' := by
  induction p generalizing s chs with
  | ret a =>
      cases chs <;> cases h
      exact ⟨rfl, rfl⟩
  | raise e =>
      cases chs <;> cases h
      exact ⟨rfl, rfl⟩
  | op o k ih =>
      cases chs with
      | nil => cases h
      | cons ch chs =>
          obtain ⟨⟨r, s₁⟩, hexec, hrest⟩ := Option.bind_eq_some_iff.mp h
          exact ⟨s, ch, r, s₁, hmove s, hallow ch List.mem_cons_self, hexec,
            ih r (fun c hc => hallow c (List.mem_cons_of_mem _ hc)) hrest⟩

/-- A run with a tested end. -/
theorem exists_solo {p : Prog S ε α} {s : M.State} (test : Except ε α → M.State → Bool)
    (chs : List M.Choice) (hmove : ∀ s, E.moves s s) (hallow : ∀ ch ∈ chs, E.allows ch)
    (h : ((p.play M tid s chs).any fun y => test y.1 y.2) = true) :
    ∃ x s', p.Solo E tid s x s' ∧ test x s' = true := by
  obtain ⟨⟨x, s'⟩, hplay, htest⟩ := (Option.any_eq_true _ _).mp h
  exact ⟨x, s', solo_of_play hmove hallow hplay, htest⟩

end Prog

end Tim.Lib

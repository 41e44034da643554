import Tim.Lib.Prog

/-!
# `Tim.Lib.Twin`: programs inside a larger signature, and pairs of runs

Two things that a program over one signature needs when it becomes part of a larger system.

* `Embedding S T` places the calls of `S` among the calls of `T`, and `Prog.embed` carries a
  program over. `Meets.embed` carries its calls and results over.
* `Twin A E p q` relates two programs call by call. They make the same calls, and as long as
  the answers are related by `A` they go on, until they end in results related by `E`. With
  `p = q` this is a property of two runs of one program: answers that differ only as far as `A`
  allows lead to results that differ only as far as `E` allows.

`Prog.run` runs a program against answers that are numbered in the order of the calls, so a
pair of runs is a pair of such answers. `Twin.run` is what `Twin` says about it.

`Under A ψ p` is the same idea for one run: as long as the answers meet `A`, the program ends in
a result that meets `ψ`.
-/

set_option autoImplicit false

namespace Tim.Lib

/-- The calls of `S` as calls of `T`. -/
structure Embedding (S T : Sig) where
  op : S.Op → T.Op
  resp : ∀ o, T.Resp (op o) → S.Resp o

namespace Prog

variable {S T : Sig} {ε ε' α β γ δ : Type}

/-- A program over `S` as one over `T`, its errors mapped by `f`. -/
def embed (e : Embedding S T) (f : ε → ε') : Prog S ε α → Prog T ε' α
  | .ret a => .ret a
  | .raise x => .raise (f x)
  | .op o k => .op (e.op o) fun r => (k (e.resp o r)).embed e f

/-- A result makes no call, so there is nothing to embed. -/
@[simp] theorem embed_ret (e : Embedding S T) (f : ε → ε') (a : α) :
    (Prog.ret a : Prog S ε α).embed e f = .ret a := rfl

/-- An error makes no call. Only its type changes. -/
@[simp] theorem embed_raise (e : Embedding S T) (f : ε → ε') (x : ε) :
    (Prog.raise x : Prog S ε α).embed e f = .raise (f x) := rfl

/-- The result of an embedded program. -/
def embedResult (f : ε → ε') : Except ε α → Except ε' α
  | .ok a => .ok a
  | .error e => .error (f e)

/-- An embedded program makes the calls of the program and ends in its results. -/
theorem Meets.embed {φ : S.Op → Prop} {ψ : Except ε α → Prop} {φ' : T.Op → Prop}
    {ψ' : Except ε' α → Prop} {e : Embedding S T} {f : ε → ε'} {p : Prog S ε α}
    (hp : p.Meets φ ψ) (hφ : ∀ o, φ o → φ' (e.op o)) (hψ : ∀ x, ψ x → ψ' (embedResult f x)) :
    (p.embed e f).Meets φ' ψ' := by
  induction p with
  | ret a => exact hψ (.ok a) hp
  | raise x => exact hψ (.error x) hp
  | op o k ih => exact ⟨hφ o hp.1, fun r => ih (e.resp o r) (hp.2 (e.resp o r))⟩

/-! ### Numbered answers -/

/-- The result of a program when its call number `n` is answered by `env n`. -/
def run (env : Nat → (o : S.Op) → S.Resp o) (p : Prog S ε α) : Except ε α :=
  (p.interp (fun o n => (env n o, n + 1)) 0).1

/-- A program whose results all meet `ψ` ends in such a result against every handler. -/
theorem Meets.interp {σ : Type} {φ : S.Op → Prop} {ψ : Except ε α → Prop} {p : Prog S ε α}
    (hp : p.Meets φ ψ) (h : (o : S.Op) → σ → S.Resp o × σ) (s : σ) : ψ (p.interp h s).1 := by
  induction p generalizing s with
  | ret a => exact hp
  | raise e => exact hp
  | op o k ih => exact ih _ (hp.2 _) _

/-- A program whose results all meet `ψ` runs to such a result. -/
theorem Meets.run {φ : S.Op → Prop} {ψ : Except ε α → Prop} {p : Prog S ε α}
    (hp : p.Meets φ ψ) (env : Nat → (o : S.Op) → S.Resp o) : ψ (p.run env) :=
  hp.interp _ 0

/-- A composition that runs to a value has run its first part to a value. -/
theorem run_bind_ok {env : Nat → (o : S.Op) → S.Resp o} {p : Prog S ε α} {f : α → Prog S ε β}
    {b : β} (h : (p >>= f).run env = .ok b) :
    ∃ a n, p.run env = .ok a ∧ ((f a).interp (fun o n => (env n o, n + 1)) n).1 = .ok b := by
  unfold run at h ⊢
  rw [bind_eq, interp_handle] at h
  split at h
  · rename_i a n hp
    exact ⟨a, n, by rw [hp], h⟩
  · cases h

/-- Answers that do not depend on the number of the call. -/
theorem run_const (f : (o : S.Op) → S.Resp o) (p : Prog S ε α) :
    p.run (fun _ => f) = p.answer f := by
  suffices hall : ∀ n : Nat, (p.interp (fun o n => (f o, n + 1)) n).1 = p.answer f from hall 0
  induction p with
  | ret a => exact fun _ => rfl
  | raise e => exact fun _ => rfl
  | op o k ih => exact fun n => ih (f o) (n + 1)

/-- An embedded program gets the answers of the larger signature. -/
theorem answer_embed (e : Embedding S T) (f : ε → ε') (g : (o : T.Op) → T.Resp o)
    (p : Prog S ε α) :
    (p.embed e f).answer g = embedResult f (p.answer fun o => e.resp o (g (e.op o))) := by
  induction p with
  | ret a => rfl
  | raise x => rfl
  | op o k ih => exact ih _

/-! ### Answers that meet a condition -/

/-- The program ends in a result that meets `ψ` whenever the answers meet `A`. -/
def Under (A : (o : S.Op) → S.Resp o → Prop) (ψ : Except ε α → Prop) : Prog S ε α → Prop
  | .ret a => ψ (.ok a)
  | .raise e => ψ (.error e)
  | .op o k => ∀ r, A o r → (k r).Under A ψ

/-- The rule of a call. -/
theorem Under.call_bind {A : (o : S.Op) → S.Resp o → Prop} {ψ : Except ε α → Prop} {o : S.Op}
    {f : S.Resp o → Prog S ε α} (hrest : ∀ r, A o r → (f r).Under A ψ) : (call o >>= f).Under A ψ :=
  hrest

/-- The rule of consequence. -/
theorem Under.mono {A : (o : S.Op) → S.Resp o → Prop} {ψ ψ' : Except ε α → Prop}
    {p : Prog S ε α} (hp : p.Under A ψ) (hψ : ∀ x, ψ x → ψ' x) : p.Under A ψ' := by
  induction p with
  | ret a => exact hψ _ hp
  | raise e => exact hψ _ hp
  | op o k ih => exact fun r hr => ih r (hp r hr)

/-- The condition that every result meets. -/
theorem under_any (A : (o : S.Op) → S.Resp o → Prop) (p : Prog S ε α) :
    p.Under A (fun _ => True) := by
  induction p with
  | ret a => exact trivial
  | raise e => exact trivial
  | op o k ih => exact fun r _ => ih r

/-- The rule of sequential composition. -/
theorem Under.handle {A : (o : S.Op) → S.Resp o → Prop} {ψ : Except ε α → Prop}
    {ψ' : Except ε' β → Prop} {p : Prog S ε α} {f : α → Prog S ε' β} {g : ε → Prog S ε' β}
    (hp : p.Under A ψ) (hrest : ∀ x, ψ x → (resume f g x).Under A ψ') :
    (p.handle f g).Under A ψ' := by
  induction p with
  | ret a => exact hrest (.ok a) hp
  | raise e => exact hrest (.error e) hp
  | op o k ih => exact fun r hr => ih r (hp r hr)

/-- The rule of `do`: the errors of the first program are results of the whole. -/
theorem Under.bind {A : (o : S.Op) → S.Resp o → Prop} {ψ : Except ε α → Prop}
    {ψ' : Except ε β → Prop} {p : Prog S ε α} {f : α → Prog S ε β} (hp : p.Under A ψ)
    (hok : ∀ a, ψ (.ok a) → (f a).Under A ψ') (herr : ∀ e, ψ (.error e) → ψ' (.error e)) :
    (p >>= f).Under A ψ' := by
  refine hp.handle fun x hx => ?_
  cases x with
  | ok a => exact hok a hx
  | error e => exact herr e hx

/-- An embedded program has the results of the program. -/
theorem Under.embed {A : (o : S.Op) → S.Resp o → Prop} {A' : (o : T.Op) → T.Resp o → Prop}
    {ψ : Except ε α → Prop} {ψ' : Except ε' α → Prop} {e : Embedding S T} {f : ε → ε'}
    {p : Prog S ε α} (hp : p.Under A ψ) (hA : ∀ o r, A' (e.op o) r → A o (e.resp o r))
    (hψ : ∀ x, ψ x → ψ' (embedResult f x)) : (p.embed e f).Under A' ψ' := by
  induction p with
  | ret a => exact hψ (.ok a) hp
  | raise x => exact hψ (.error x) hp
  | op o k ih => exact fun r hr => ih (e.resp o r) (hp _ (hA o r hr))

/-- A run against answers that meet the condition ends in such a result. -/
theorem Under.run {A : (o : S.Op) → S.Resp o → Prop} {ψ : Except ε α → Prop} {p : Prog S ε α}
    (hp : p.Under A ψ) {env : Nat → (o : S.Op) → S.Resp o} (henv : ∀ n o, A o (env n o)) :
    ψ (p.run env) := by
  suffices hall : ∀ n : Nat, ψ (p.interp (fun o n => (env n o, n + 1)) n).1 from hall 0
  induction p with
  | ret a => exact fun _ => hp
  | raise e => exact fun _ => hp
  | op o k ih => exact fun n => ih (env n o) (hp _ (henv n o)) (n + 1)

/-! ### Pairs of programs -/

/-- `p` and `q` make the same calls, and end in results related by `E` whenever the answers
are related by `A`. -/
inductive Twin (A : (o : S.Op) → S.Resp o → S.Resp o → Prop)
    (E : Except ε α → Except ε' β → Prop) : Prog S ε α → Prog S ε' β → Prop
  | done (x : Except ε α) (y : Except ε' β) (h : E x y) : Twin A E (ofExcept x) (ofExcept y)
  | op (o : S.Op) (k : S.Resp o → Prog S ε α) (k' : S.Resp o → Prog S ε' β)
      (h : ∀ r r', A o r r' → Twin A E (k r) (k' r')) : Twin A E (.op o k) (.op o k')

variable {A : (o : S.Op) → S.Resp o → S.Resp o → Prop} {E : Except ε α → Except ε' β → Prop}

/-- Two results that correspond. -/
theorem Twin.ret {a : α} {b : β} (h : E (.ok a) (.ok b)) : Twin A E (.ret a) (.ret b) :=
  .done (.ok a) (.ok b) h

/-- Two errors that correspond. -/
theorem Twin.raise {e : ε} {e' : ε'} (h : E (.error e) (.error e')) :
    Twin A E (.raise e) (.raise e') := .done (.error e) (.error e') h

/-- The rule of consequence. -/
theorem Twin.mono {E' : Except ε α → Except ε' β → Prop} {p : Prog S ε α} {q : Prog S ε' β}
    (h : Twin A E p q) (hE : ∀ x y, E x y → E' x y) : Twin A E' p q := by
  induction h with
  | done x y h => exact .done x y (hE x y h)
  | op o k k' _ ih => exact .op o k k' fun r r' hr => ih r r' hr

/-- The rule of sequential composition. -/
theorem Twin.handle {ε₁ ε₂ : Type} {E' : Except ε₁ γ → Except ε₂ δ → Prop} {p : Prog S ε α}
    {q : Prog S ε' β} {f : α → Prog S ε₁ γ} {g : ε → Prog S ε₁ γ} {f' : β → Prog S ε₂ δ}
    {g' : ε' → Prog S ε₂ δ} (h : Twin A E p q)
    (hrest : ∀ x y, E x y → Twin A E' (resume f g x) (resume f' g' y)) :
    Twin A E' (p.handle f g) (q.handle f' g') := by
  induction h with
  | done x y h =>
      cases x <;> cases y <;> exact hrest _ _ h
  | op o k k' _ ih => exact .op o _ _ fun r r' hr => ih r r' hr

/-- The rule of one call. -/
theorem Twin.call {ε₁ ε₂ : Type} {o : S.Op}
    {E : Except ε₁ (S.Resp o) → Except ε₂ (S.Resp o) → Prop}
    (h : ∀ r r', A o r r' → E (.ok r) (.ok r')) :
    Twin A E (Prog.call o : Prog S ε₁ (S.Resp o)) (Prog.call o : Prog S ε₂ (S.Resp o)) :=
  .op o _ _ fun r r' hr => .ret (h r r' hr)

/-- A program whose calls all have answers that `A` relates only to themselves ends in one
result. -/
theorem Twin.of_exact {φ : S.Op → Prop} {ψ : Except ε α → Prop} {p : Prog S ε α}
    (hp : p.Meets φ ψ) (hexact : ∀ o, φ o → ∀ r r', A o r r' → r = r') :
    Twin A (fun x y => x = y ∧ ψ x) p p := by
  induction p with
  | ret a => exact .ret ⟨rfl, hp⟩
  | raise e => exact .raise ⟨rfl, hp⟩
  | op o k ih =>
      refine .op o k k fun r r' hr => ?_
      cases hexact o hp.1 r r' hr
      exact ih r (hp.2 r)

/-- Embedded programs are related as the programs are. -/
theorem Twin.embed {ε₁ ε₂ : Type} {A' : (o : T.Op) → T.Resp o → T.Resp o → Prop}
    {E' : Except ε₁ α → Except ε₂ β → Prop} {e : Embedding S T} {f : ε → ε₁} {f' : ε' → ε₂}
    {p : Prog S ε α} {q : Prog S ε' β} (h : Twin A E p q)
    (hA : ∀ o r r', A' (e.op o) r r' → A o (e.resp o r) (e.resp o r'))
    (hE : ∀ x y, E x y → E' (embedResult f x) (embedResult f' y)) :
    Twin A' E' (p.embed e f) (q.embed e f') := by
  induction h with
  | done x y h =>
      have h' := hE x y h
      cases x <;> cases y
      · exact .raise h'
      · exact .done (.error _) (.ok _) h'
      · exact .done (.ok _) (.error _) h'
      · exact .ret h'
  | op o k k' _ ih => exact .op (e.op o) _ _ fun r r' hr => ih _ _ (hA o r r' hr)

/-- Runs of related programs against related answers end in related results. -/
theorem Twin.run {p : Prog S ε α} {q : Prog S ε' β} (h : Twin A E p q)
    {env env' : Nat → (o : S.Op) → S.Resp o} (henv : ∀ n o, A o (env n o) (env' n o)) :
    E (p.run env) (q.run env') := by
  suffices hall : ∀ n : Nat, E (p.interp (fun o n => (env n o, n + 1)) n).1
      (q.interp (fun o n => (env' n o, n + 1)) n).1 from hall 0
  induction h with
  | done x y h =>
      intro n
      cases x <;> cases y <;> exact h
  | op o k k' _ ih =>
      intro n
      exact ih _ _ (henv n o) (n + 1)

end Prog

end Tim.Lib

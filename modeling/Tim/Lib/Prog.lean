import Mathlib.Tactic.Common

/-!
# `Tim.Lib.Prog`: programs over an operation signature

A request handler is sequential code with calls to the outside in it: a clock, a random
source, a database. `Prog S ε α` is that shape with the calls left open. A program returns a
value, raises an error, or makes one call of the signature `S` and goes on with the answer.

Four readings of a program follow.

* `Prog.answer` runs a program against one fixed answer per call, the reading at one instant
  in one state.
* `Prog.interp` runs a program alone against a handler with a state of its own.
* `Prog.expand` puts a program over another signature in the place of each call.
* `Prog.Spec` is the program logic. `Spec φ ψ h p` says: started after the local history `h`,
  the program `p` makes only calls that `φ` allows after the history so far, and ends only in
  results that `ψ` allows after the whole history. The rules follow the constructors, and
  `spec_handle` is the rule of sequential composition.

Nothing here depends on how calls of different programs interleave. That is
`Tim.Lib.Pool`, which takes a `Spec` of each program as its input.
-/

set_option autoImplicit false

namespace Tim.Lib

/-- An operation signature: the calls a program can make, and the type of the answer to
each of them. -/
structure Sig where
  Op : Type
  Resp : Op → Type

/-- A call together with its answer. -/
structure Event (S : Sig) where
  op : S.Op
  resp : S.Resp op

/-- A program over the signature `S` that returns an `α` or raises an `ε`. -/
inductive Prog (S : Sig) (ε α : Type) where
  | ret (a : α)
  | raise (e : ε)
  | op (o : S.Op) (k : S.Resp o → Prog S ε α)

namespace Prog

variable {S : Sig} {ε ε' α β : Type}

/-- Run `p`, then `f` on its value or `g` on its error. -/
def handle : Prog S ε α → (α → Prog S ε' β) → (ε → Prog S ε' β) → Prog S ε' β
  | .ret a, f, _ => f a
  | .raise e, _, g => g e
  | .op o k, f, g => .op o fun r => (k r).handle f g

instance : Monad (Prog S ε) where
  pure := .ret
  bind p f := p.handle f .raise

/-- One call, with its answer as the value. -/
def call (o : S.Op) : Prog S ε (S.Resp o) := .op o .ret

/-- A value that is already an `Except`. -/
def ofExcept : Except ε α → Prog S ε α
  | .ok a => .ret a
  | .error e => .raise e

/-- A bind handles a result and lets an error pass. -/
theorem bind_eq (p : Prog S ε α) (f : α → Prog S ε β) : p >>= f = p.handle f .raise := rfl

/-- A result goes to the handler of results. -/
@[simp] theorem handle_ret (a : α) (f : α → Prog S ε' β) (g : ε → Prog S ε' β) :
    (Prog.ret a : Prog S ε α).handle f g = f a := rfl

/-- An error goes to the handler of errors. -/
@[simp] theorem handle_raise (e : ε) (f : α → Prog S ε' β) (g : ε → Prog S ε' β) :
    (Prog.raise e : Prog S ε α).handle f g = g e := rfl

/-- A call is made before either handler has its turn. -/
@[simp] theorem handle_op (o : S.Op) (k : S.Resp o → Prog S ε α) (f : α → Prog S ε' β)
    (g : ε → Prog S ε' β) :
    (Prog.op o k).handle f g = .op o fun r => (k r).handle f g := rfl

/-- Three programs in a row do not depend on how they are grouped. -/
theorem bind_assoc {γ : Type} (p : Prog S ε α) (f : α → Prog S ε β) (g : β → Prog S ε γ) :
    p >>= f >>= g = p >>= fun a => f a >>= g := by
  simp only [bind_eq]
  induction p with
  | ret a => rfl
  | raise e => rfl
  | op o k ih => exact congrArg (Prog.op o) (funext ih)

/-! ### One fixed answer per call -/

/-- The result of a program when every call `o` is answered by `f o`. -/
def answer (f : (o : S.Op) → S.Resp o) : Prog S ε α → Except ε α
  | .ret a => .ok a
  | .raise e => .error e
  | .op o k => (k (f o)).answer f

/-- A program that returns has its result whatever the answers are. -/
@[simp] theorem answer_ret (f : (o : S.Op) → S.Resp o) (a : α) :
    (Prog.ret a : Prog S ε α).answer f = .ok a := rfl

/-- A program that raises has its error whatever the answers are. -/
@[simp] theorem answer_raise (f : (o : S.Op) → S.Resp o) (e : ε) :
    (Prog.raise e : Prog S ε α).answer f = .error e := rfl

/-- A call is answered by the function, and the program goes on with the answer. -/
@[simp] theorem answer_op (f : (o : S.Op) → S.Resp o) (o : S.Op)
    (k : S.Resp o → Prog S ε α) : (Prog.op o k).answer f = (k (f o)).answer f := rfl

/-- Answering a composition is answering its parts in turn. -/
theorem answer_handle (f : (o : S.Op) → S.Resp o) (p : Prog S ε α)
    (g : α → Prog S ε' β) (g' : ε → Prog S ε' β) :
    (p.handle g g').answer f
      = match p.answer f with
        | .ok a => (g a).answer f
        | .error e => (g' e).answer f := by
  induction p with
  | ret a => rfl
  | raise e => rfl
  | op o k ih => exact ih (f o)

/-! ### One program against a handler with a state -/

/-- Run a program alone. The handler answers each call and moves its own state. -/
def interp {σ : Type} (h : (o : S.Op) → σ → S.Resp o × σ) :
    Prog S ε α → σ → Except ε α × σ
  | .ret a, s => (.ok a, s)
  | .raise e, s => (.error e, s)
  | .op o k, s => (k (h o s).1).interp h (h o s).2

/-- A call that comes first is answered first. -/
theorem interp_call_bind {σ : Type} (h : (o : S.Op) → σ → S.Resp o × σ) (o : S.Op)
    (f : S.Resp o → Prog S ε α) (s : σ) :
    (call o >>= f).interp h s = (f (h o s).1).interp h (h o s).2 :=
  rfl

/-- Running a composition is running its parts in turn, the state passed on. -/
theorem interp_handle {σ : Type} (h : (o : S.Op) → σ → S.Resp o × σ) (p : Prog S ε α)
    (f : α → Prog S ε' β) (g : ε → Prog S ε' β) (s : σ) :
    (p.handle f g).interp h s
      = match p.interp h s with
        | (.ok a, s') => (f a).interp h s'
        | (.error e, s') => (g e).interp h s' := by
  induction p generalizing s with
  | ret a => rfl
  | raise e => rfl
  | op o k ih => exact ih (h o s).1 (h o s).2

/-! ### Programs in place of calls -/

/-- The program with every call `o` replaced by the program `f o`, and its errors renamed. -/
def expand {T : Sig} (f : (o : S.Op) → Prog T ε' (S.Resp o)) (g : ε → ε') :
    Prog S ε α → Prog T ε' α
  | .ret a => .ret a
  | .raise e => .raise (g e)
  | .op o k => f o >>= fun r => (k r).expand f g

/-- A result has no calls to expand. -/
@[simp] theorem expand_ret {T : Sig} (f : (o : S.Op) → Prog T ε' (S.Resp o)) (g : ε → ε') (a : α) :
    (Prog.ret a : Prog S ε α).expand f g = .ret a := rfl

/-- An error has no calls to expand. Its type changes. -/
@[simp] theorem expand_raise {T : Sig} (f : (o : S.Op) → Prog T ε' (S.Resp o)) (g : ε → ε')
    (e : ε) : (Prog.raise e : Prog S ε α).expand f g = .raise (g e) := rfl

/-- A call that comes first is expanded first. -/
theorem expand_call_bind {T : Sig} (f : (o : S.Op) → Prog T ε' (S.Resp o)) (g : ε → ε') (o : S.Op)
    (k : S.Resp o → Prog S ε α) :
    (call o >>= k).expand f g = f o >>= fun r => (k r).expand f g := rfl

/-! ### The program logic -/

/-- After the local history `h`, the program makes only calls that `φ` allows after the
history at that point, and ends only in results that `ψ` allows after the whole history.
The answers to the calls are arbitrary. -/
def Spec (φ : List (Event S) → S.Op → Prop) (ψ : List (Event S) → Except ε α → Prop) :
    List (Event S) → Prog S ε α → Prop
  | h, .ret a => ψ h (.ok a)
  | h, .raise e => ψ h (.error e)
  | h, .op o k => φ h o ∧ ∀ r, Spec φ ψ (h ++ [⟨o, r⟩]) (k r)

variable {φ : List (Event S) → S.Op → Prop} {ψ : List (Event S) → Except ε α → Prop}

/-- A result has to meet the postcondition where it is. -/
@[simp] theorem spec_ret (h : List (Event S)) (a : α) :
    Spec φ ψ h (.ret a) ↔ ψ h (.ok a) := Iff.rfl

/-- An error has to meet the postcondition where it is. -/
@[simp] theorem spec_raise (h : List (Event S)) (e : ε) :
    Spec φ ψ h (.raise e) ↔ ψ h (.error e) := Iff.rfl

/-- A call has to be allowed by the history before it, and the rest of the program starts from a
history with every answer to it. -/
@[simp] theorem spec_op (h : List (Event S)) (o : S.Op) (k : S.Resp o → Prog S ε α) :
    Spec φ ψ h (.op o k) ↔ φ h o ∧ ∀ r, Spec φ ψ (h ++ [⟨o, r⟩]) (k r) := Iff.rfl

/-- The rule of one call. -/
@[simp] theorem spec_call (h : List (Event S)) (o : S.Op)
    (ψ : List (Event S) → Except ε (S.Resp o) → Prop) :
    Spec φ ψ h (call o) ↔ φ h o ∧ ∀ r, ψ (h ++ [⟨o, r⟩]) (.ok r) := Iff.rfl

/-- The outcome of a pure function makes no call. -/
@[simp] theorem spec_ofExcept (h : List (Event S)) (x : Except ε α) :
    Spec φ ψ h (ofExcept x) ↔ ψ h x := by
  cases x <;> rfl

/-- The rule of sequential composition: the first program has to end in a history after
which the rest meets its own specification. -/
theorem spec_handle {ψ : List (Event S) → Except ε' β → Prop} (p : Prog S ε α)
    (f : α → Prog S ε' β) (g : ε → Prog S ε' β) (h : List (Event S)) :
    Spec φ ψ h (p.handle f g)
      ↔ Spec φ (fun h' x => match x with
          | .ok a => Spec φ ψ h' (f a)
          | .error e => Spec φ ψ h' (g e)) h p := by
  induction p generalizing h with
  | ret a => rfl
  | raise e => rfl
  | op o k ih =>
      simp only [handle_op, spec_op]
      exact and_congr_right fun _ => forall_congr' fun r => ih r _

/-- The rule of two programs in a row: the postcondition of the first is the precondition of the
second, and an error of the first is one of both. -/
theorem spec_bind {ψ : List (Event S) → Except ε β → Prop} (p : Prog S ε α)
    (f : α → Prog S ε β) (h : List (Event S)) :
    Spec φ ψ h (p >>= f)
      ↔ Spec φ (fun h' x => match x with
          | .ok a => Spec φ ψ h' (f a)
          | .error e => ψ h' (.error e)) h p :=
  spec_handle p f .raise h

/-- The rule of consequence. -/
theorem Spec.mono {φ' : List (Event S) → S.Op → Prop}
    {ψ' : List (Event S) → Except ε α → Prop} {p : Prog S ε α} {h : List (Event S)}
    (hp : Spec φ ψ h p) (hφ : ∀ h o, φ h o → φ' h o) (hψ : ∀ h x, ψ h x → ψ' h x) :
    Spec φ' ψ' h p := by
  induction p generalizing h with
  | ret a => exact hψ _ _ hp
  | raise e => exact hψ _ _ hp
  | op o k ih => exact ⟨hφ _ _ hp.1, fun r => ih r (hp.2 r)⟩

/-- The rule of conjunction. -/
theorem Spec.and {φ' : List (Event S) → S.Op → Prop}
    {ψ' : List (Event S) → Except ε α → Prop} {p : Prog S ε α} {h : List (Event S)}
    (hp : Spec φ ψ h p) (hp' : Spec φ' ψ' h p) :
    Spec (fun h o => φ h o ∧ φ' h o) (fun h x => ψ h x ∧ ψ' h x) h p := by
  induction p generalizing h with
  | ret a => exact ⟨hp, hp'⟩
  | raise e => exact ⟨hp, hp'⟩
  | op o k ih => exact ⟨⟨hp.1, hp'.1⟩, fun r => ih r (hp.2 r) (hp'.2 r)⟩

/-- A program only adds events, so a specification may be read under the events so far. -/
theorem Spec.of_prefix {h₀ h : List (Event S)} {p : Prog S ε α}
    (hp : Spec (fun h o => h₀ <+: h → φ h o) (fun h x => h₀ <+: h → ψ h x) h p)
    (hpre : h₀ <+: h) : Spec φ ψ h p := by
  induction p generalizing h with
  | ret a => exact hp hpre
  | raise e => exact hp hpre
  | op o k ih =>
      exact ⟨hp.1 hpre, fun r => ih r (hp.2 r) (hpre.trans (List.prefix_append h [⟨o, r⟩]))⟩

/-! ### Specifications that do not look at the history -/

/-- Every call of the program meets `φ` and every result meets `ψ`, whatever the answers
are. -/
def Meets (φ : S.Op → Prop) (ψ : Except ε α → Prop) : Prog S ε α → Prop
  | .ret a => ψ (.ok a)
  | .raise e => ψ (.error e)
  | .op o k => φ o ∧ ∀ r, (k r).Meets φ ψ

/-- A specification without the history. -/
theorem Spec.meets {φ' : S.Op → Prop} {ψ' : Except ε α → Prop} {p : Prog S ε α}
    {h : List (Event S)} (hp : Spec φ ψ h p) (hφ : ∀ h o, φ h o → φ' o)
    (hψ : ∀ h x, ψ h x → ψ' x) : p.Meets φ' ψ' := by
  induction p generalizing h with
  | ret a => exact hψ _ _ hp
  | raise e => exact hψ _ _ hp
  | op o k ih => exact ⟨hφ _ _ hp.1, fun r => ih r (hp.2 r)⟩

variable {φ : S.Op → Prop} {ψ : Except ε α → Prop}

/-- A property that does not look at the history is one that may. -/
theorem Meets.spec {p : Prog S ε α} (hp : p.Meets φ ψ) (h : List (Event S)) :
    p.Spec (fun _ o => φ o) (fun _ x => ψ x) h := by
  induction p generalizing h with
  | ret a => exact hp
  | raise e => exact hp
  | op o k ih => exact ⟨hp.1, fun r => ih r (hp.2 r) _⟩

/-- The calls and the results may be described more loosely. -/
theorem Meets.mono {φ' : S.Op → Prop} {ψ' : Except ε α → Prop} {p : Prog S ε α}
    (hp : p.Meets φ ψ) (hφ : ∀ o, φ o → φ' o) (hψ : ∀ x, ψ x → ψ' x) : p.Meets φ' ψ' :=
  (hp.spec []).meets (fun _ => hφ) (fun _ => hψ)

/-- The specification that allows everything. -/
theorem meets_any (p : Prog S ε α) : p.Meets (fun _ => True) (fun _ => True) := by
  induction p with
  | ret a => exact trivial
  | raise e => exact trivial
  | op o k ih => exact ⟨trivial, ih⟩

/-- The rest of a composition after a result. -/
def resume (f : α → Prog S ε' β) (g : ε → Prog S ε' β) : Except ε α → Prog S ε' β
  | .ok a => f a
  | .error e => g e

/-- The rule of sequential composition. -/
theorem Meets.handle {ψ' : Except ε' β → Prop} {p : Prog S ε α} {f : α → Prog S ε' β}
    {g : ε → Prog S ε' β} (hp : p.Meets φ ψ) (hrest : ∀ x, ψ x → (resume f g x).Meets φ ψ') :
    (p.handle f g).Meets φ ψ' := by
  induction p with
  | ret a => exact hrest (.ok a) hp
  | raise e => exact hrest (.error e) hp
  | op o k ih => exact ⟨hp.1, fun r => ih r (hp.2 r)⟩

/-- The rule of `do`: the errors of the first program are results of the whole. -/
theorem Meets.bind {ψ' : Except ε β → Prop} {p : Prog S ε α} {f : α → Prog S ε β}
    (hp : p.Meets φ ψ) (hok : ∀ a, ψ (.ok a) → (f a).Meets φ ψ')
    (herr : ∀ e, ψ (.error e) → ψ' (.error e)) : (p >>= f).Meets φ ψ' := by
  refine hp.handle fun x hx => ?_
  cases x with
  | ok a => exact hok a hx
  | error e => exact herr e hx

/-- The rule of a call. -/
theorem Meets.call_bind {o : S.Op} {f : S.Resp o → Prog S ε α} (ho : φ o)
    (hrest : ∀ r, (f r).Meets φ ψ) : (call o >>= f).Meets φ ψ :=
  ⟨ho, hrest⟩

end Prog

end Tim.Lib

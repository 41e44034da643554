import Tim.Lib.Twin

/-!
# `Tim.Lib.Fails`: the errors that a program can end in

`p.Fails A P` says that every error of `p` is in the class `P`, as long as the answers from outside
meet `A`. It is the half of `Under` that is about errors, with a rule for each way of building a
program, so that the errors of a long function are collected from those that are written in it.
`Fails.bind_under` then hands the results of a function over to the program that has called it.
-/

set_option autoImplicit false

namespace Tim.Lib.Prog

variable {S T : Sig} {ε ε' α β : Type} {A : (o : S.Op) → S.Resp o → Prop} {P : ε → Prop}

/-- The result is a value, or an error of the class. -/
def ErrorIn (P : ε → Prop) : Except ε α → Prop
  | .ok _ => True
  | .error e => P e

/-- Whenever the answers meet `A`, an error of the program is in the class `P`. -/
def Fails (A : (o : S.Op) → S.Resp o → Prop) (P : ε → Prop) (p : Prog S ε α) : Prop :=
  p.Under A (ErrorIn P)

/-- A program that returns raises nothing. -/
theorem Fails.ret (a : α) : (Prog.ret a : Prog S ε α).Fails A P := trivial

/-- A program that raises an error raises only that one. -/
theorem Fails.raise {e : ε} (he : P e) : (Prog.raise e : Prog S ε α).Fails A P := he

/-- Two programs in a row raise what either of them raises. -/
theorem Fails.bind {p : Prog S ε α} {f : α → Prog S ε β} (hp : p.Fails A P)
    (hf : ∀ a, (f a).Fails A P) : (p >>= f).Fails A P :=
  Under.bind hp (fun a _ => hf a) fun _ he => he

/-- A call itself raises nothing. What comes after it does, for every answer that the surroundings
allow. -/
theorem Fails.call {o : S.Op} {f : S.Resp o → Prog S ε β}
    (hf : ∀ r, A o r → (f r).Fails A P) : (Prog.call o >>= f).Fails A P := fun r hr => hf r hr

/-- What holds after every answer that the surroundings allow holds after the call. -/
theorem Under.call {ψ : Except ε β → Prop} {o : S.Op} {f : S.Resp o → Prog S ε β}
    (hf : ∀ r, A o r → (f r).Under A ψ) : (Prog.call o >>= f).Under A ψ := fun r hr => hf r hr

/-- What comes after a program whose errors are known. -/
theorem Fails.bind_under {ψ : Except ε β → Prop} {p : Prog S ε α} {f : α → Prog S ε β}
    (hp : p.Fails A P) (hok : ∀ a, (f a).Under A ψ) (herr : ∀ e, P e → ψ (.error e)) :
    (p >>= f).Under A ψ :=
  Under.bind hp (fun a _ => hok a) herr

/-- The errors of an embedded program. -/
theorem Fails.embed {A' : (o : T.Op) → T.Resp o → Prop} {P' : ε' → Prop} {e : Embedding S T}
    {f : ε → ε'} {p : Prog S ε α} (hp : p.Fails A P)
    (hA : ∀ o r, A' (e.op o) r → A o (e.resp o r)) (hP : ∀ x, P x → P' (f x)) :
    (p.embed e f).Fails A' P' := by
  refine Under.embed hp hA fun x hx => ?_
  cases x with
  | ok a => trivial
  | error x => exact hP x hx

end Tim.Lib.Prog

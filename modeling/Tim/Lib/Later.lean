import Tim.Lib.Pool
import Tim.Lib.Twin

/-!
# `Tim.Lib.Later`: what an earlier run says about a later one

A task that has ended has seen answers of the shared state. A task that starts afterwards sees
answers of later states. When the state only moves in one direction (a clock, a table that only
grows), the later answers are related to the earlier ones, and so the earlier result can rule the
later one out.

* `Reach.pairwise` is the rule for the answers: what is `Known` after a call, and stays so, relates
  every answer in the history to all answers after it.
* `Precludes G A ψ χ p q` is the rule for the programs, by their constructors: as long as the two
  programs make the same calls and their answers are related by `A`, either `p` cannot end in `ψ`
  any more, or `q` cannot end in `χ`. `G` says which answers a call can have at all.
* `Reach.precludes` puts the two together, for a task that has its result before the other one
  starts.
-/

set_option autoImplicit false

namespace Tim.Lib

variable {S : Sig} {ε ε' α β : Type}

namespace Prog

/-- The program ends in the result when its calls are answered by the events, in their order. -/
def Runs : Prog S ε α → List (Event S) → Except ε α → Prop
  | .ret a, es, x => es = [] ∧ x = .ok a
  | .raise e, es, x => es = [] ∧ x = .error e
  | .op o k, es, x => ∃ r rest, es = ⟨o, r⟩ :: rest ∧ Runs (k r) rest x

/-- Every result comes from such a run. -/
theorem spec_runs (p : Prog S ε α) (h : List (Event S)) :
    p.Spec (fun _ _ => True) (fun h' x => ∃ es, h' = h ++ es ∧ p.Runs es x) h := by
  induction p generalizing h with
  | ret a => exact ⟨[], (List.append_nil h).symm, rfl, rfl⟩
  | raise e => exact ⟨[], (List.append_nil h).symm, rfl, rfl⟩
  | op o k ih =>
      refine ⟨trivial, fun r => (ih r (h ++ [⟨o, r⟩])).mono (fun _ _ h => h) ?_⟩
      intro h' x hrun
      obtain ⟨es, rfl, hruns⟩ := hrun
      exact ⟨⟨o, r⟩ :: es, by simp, r, es, rfl, hruns⟩

/-- A program that ends in `ψ` as long as the answers meet `G` does so in a run with such
answers. -/
theorem Under.result {G : (o : S.Op) → S.Resp o → Prop} {ψ : Except ε α → Prop} {p : Prog S ε α}
    (hp : p.Under G ψ) {es : List (Event S)} {x : Except ε α} (hx : p.Runs es x)
    (hG : ∀ e ∈ es, G e.op e.resp) : ψ x := by
  induction p generalizing es with
  | ret a =>
      obtain ⟨-, rfl⟩ := hx
      exact hp
  | raise e =>
      obtain ⟨-, rfl⟩ := hx
      exact hp
  | op o k ih =>
      obtain ⟨r, rest, rfl, hrest⟩ := hx
      exact ih r (hp r (hG _ List.mem_cons_self)) hrest fun e he =>
        hG e (List.mem_cons_of_mem _ he)

/-- A run of `p` that ends in `ψ` rules out that a run of `q` ends in `χ`, when the answers of the
first are related by `A` to those of the second, and all of them meet `G`. -/
inductive Precludes (G : (o : S.Op) → S.Resp o → Prop) (A : Event S → Event S → Prop)
    (ψ : Except ε α → Prop) (χ : Except ε' β → Prop) : Prog S ε α → Prog S ε' β → Prop
  /-- The first run cannot end in `ψ` from here. -/
  | early {p : Prog S ε α} {q : Prog S ε' β} (hp : p.Under G fun x => ¬ ψ x) :
      Precludes G A ψ χ p q
  /-- The second run cannot end in `χ` from here. -/
  | late {p : Prog S ε α} {q : Prog S ε' β} (hq : q.Under G fun y => ¬ χ y) :
      Precludes G A ψ χ p q
  /-- Both make the same call. -/
  | both (o : S.Op) {k : S.Resp o → Prog S ε α} {k' : S.Resp o → Prog S ε' β}
      (h : ∀ r r', A ⟨o, r⟩ ⟨o, r'⟩ → Precludes G A ψ χ (k r) (k' r')) :
      Precludes G A ψ χ (.op o k) (.op o k')

variable {G : (o : S.Op) → S.Resp o → Prop} {A : Event S → Event S → Prop}

/-- A result with its value wrapped. -/
def wrapped {γ : Type} (f : α → γ) : Except ε α → Except ε γ
  | .ok a => .ok (f a)
  | .error e => .error e

/-- A property of the wrapped result is one of the result, since wrapping makes no call and raises
nothing. -/
theorem Under.wrap {γ : Type} {f : α → γ} {ψ : Except ε γ → Prop} {p : Prog S ε α}
    (hp : p.Under G fun x => ψ (wrapped f x)) : (p >>= fun a => pure (f a)).Under G ψ :=
  hp.bind (fun _ h => h) fun _ h => h

/-- The rule for two programs whose values are wrapped. -/
theorem Precludes.wrap {γ δ : Type} {f : α → γ} {g : β → δ} {ψ : Except ε γ → Prop}
    {χ : Except ε' δ → Prop} {p : Prog S ε α} {q : Prog S ε' β}
    (h : Precludes G A (fun x => ψ (wrapped f x)) (fun y => χ (wrapped g y)) p q) :
    Precludes G A ψ χ (p >>= fun a => pure (f a)) (q >>= fun b => pure (g b)) := by
  induction h with
  | early hp => exact .early (Under.wrap (ψ := fun x => ¬ ψ x) hp)
  | late hq => exact .late (Under.wrap (ψ := fun y => ¬ χ y) hq)
  | both o _ ih => exact .both o ih

/-- The reading that a user of `Precludes` needs: two finished runs, the second one under the
assumption about the events of both. When the first has the property, the second has not the other.
-/
theorem Precludes.not {ψ : Except ε α → Prop} {χ : Except ε' β → Prop} {p : Prog S ε α}
    {q : Prog S ε' β} (h : Precludes G A ψ χ p q) {es es' : List (Event S)} {x : Except ε α}
    {y : Except ε' β} (hp : p.Runs es x) (hq : q.Runs es' y) (hG : ∀ e ∈ es, G e.op e.resp)
    (hG' : ∀ e ∈ es', G e.op e.resp) (hA : ∀ e ∈ es, ∀ e' ∈ es', A e e') (hx : ψ x) : ¬ χ y := by
  induction h generalizing es es' with
  | early hnever => exact absurd hx (hnever.result hp hG)
  | late hnever => exact hnever.result hq hG'
  | both o _ ih =>
      obtain ⟨r, rest, rfl, hrest⟩ := hp
      obtain ⟨r', rest', rfl, hrest'⟩ := hq
      have hhead := hA _ List.mem_cons_self _ List.mem_cons_self
      exact ih r r' hhead hrest hrest' (fun e he => hG e (List.mem_cons_of_mem _ he))
        (fun e he => hG' e (List.mem_cons_of_mem _ he)) fun e he e' he' =>
        hA e (List.mem_cons_of_mem _ he) e' (List.mem_cons_of_mem _ he')

end Prog

namespace Pool

variable {M : Machine S} {Req : Type} {code : Req → Prog S ε α}
  {P P' : Pool M Req ε α → Label M Req → Prop} {c c₁ c₂ : Pool M Req ε α}

/-- What is known of an event once its call is made, and stays known. -/
structure Lasting (M : Machine S) (Known : M.State → Event S → Prop) : Prop where
  made : ∀ tid s o ch r s', M.exec tid s o ch = some (r, s') → Known s' ⟨o, r⟩
  call : ∀ tid s o ch r s' e, M.exec tid s o ch = some (r, s') → Known s e → Known s' e
  release : ∀ tid s e, Known s e → Known (M.release tid s) e
  env : ∀ s x s' e, M.env s x = some s' → Known s e → Known s' e

/-- Every answer of a history is related to all answers after it. -/
theorem Reach.pairwise {Known : M.State → Event S → Prop} {A : Event S → Event S → Prop}
    {s₀ : M.State} (h : Reach code P (init s₀) c) (hlast : Lasting M Known)
    (hrel : ∀ tid s o ch r s' e, M.exec tid s o ch = some (r, s') → Known s e → A e ⟨o, r⟩) :
    c.history.Pairwise fun a b => A a.2 b.2 := by
  have hall := h.invariant (I := fun c => (c.history.Pairwise fun a b => A a.2 b.2)
    ∧ ∀ a ∈ c.history, Known c.shared a.2) ⟨.nil, fun a ha => absurd ha List.not_mem_nil⟩ ?_
  · exact hall.1
  intro c l c' _ _ hn hI
  obtain ⟨hpair, hknown⟩ := hI
  cases hn with
  | spawn req => exact ⟨hpair, hknown⟩
  | step tid ch req o k r s htask hexec =>
      constructor
      · refine List.pairwise_append.mpr ⟨hpair, List.pairwise_singleton _ _, ?_⟩
        intro a ha b hb
        rw [List.mem_singleton.mp hb]
        exact hrel tid _ o ch r s a.2 hexec (hknown a ha)
      · intro a ha
        rcases List.mem_append.mp ha with ha | ha
        · exact hlast.call tid _ o ch r s a.2 hexec (hknown a ha)
        · rw [List.mem_singleton.mp ha]
          exact hlast.made tid _ o ch r s hexec
  | cancel tid req o k htask =>
      exact ⟨hpair, fun a ha => hlast.release tid _ a.2 (hknown a ha)⟩
  | env x s henv => exact ⟨hpair, fun a ha => hlast.env _ x s a.2 henv (hknown a ha)⟩

/-- A task that has its result rules out a result of a task that starts afterwards. -/
theorem Reach.precludes {G : (o : S.Op) → S.Resp o → Prop} {A : Event S → Event S → Prop}
    {ψ χ : Except ε α → Prop} {s₀ : M.State} (h₁ : Reach code P (init s₀) c₁)
    (h₂ : Reach code P' c₁ c₂) (hG : ∀ a ∈ c₂.history, G a.2.op a.2.resp)
    (hpair : c₂.history.Pairwise fun a b => A a.2 b.2) {tid₁ tid₂ : Nat} {t₁ t₂ : Task S ε α Req}
    {x₁ x₂ : Except ε α} (ht₁ : c₁.tasks[tid₁]? = some t₁) (hx₁ : t₁.result = some x₁)
    (ht₂ : c₂.tasks[tid₂]? = some t₂) (hx₂ : t₂.result = some x₂) (hlate : c₁.tasks.length ≤ tid₂)
    (hp : Prog.Precludes G A ψ χ (code t₁.req) (code t₂.req)) (hψ : ψ x₁) : ¬ χ x₂ := by
  have hany : Reach code Any (init s₀) c₂ :=
    (h₁.mono fun _ _ _ => trivial).trans (h₂.mono fun _ _ _ => trivial)
  obtain ⟨es₁, hes₁, hrun₁⟩ := h₁.result_spec (fun req => (code req).spec_runs []) ht₁ hx₁
  obtain ⟨es₂, hes₂, hrun₂⟩ := hany.result_spec (fun req => (code req).spec_runs []) ht₂ hx₂
  rw [List.nil_append] at hes₁ hes₂
  subst hes₁ hes₂
  obtain ⟨later, hlater⟩ := h₂.history_append
  have hold : ∀ a ∈ c₁.history, a ∈ c₂.history := fun a ha => by
    rw [hlater]
    exact List.mem_append_left _ ha
  refine hp.not hrun₁ hrun₂ (fun e he => hG _ (hold _ (mem_eventsOf.mp he)))
    (fun e he => hG _ (mem_eventsOf.mp he)) ?_ hψ
  intro e he e' he'
  have hfirst : (tid₁, e) ∈ c₁.history := mem_eventsOf.mp he
  have hsecond : (tid₂, e') ∈ c₂.history := mem_eventsOf.mp he'
  rw [hlater] at hpair hsecond
  rcases List.mem_append.mp hsecond with hold | hnew
  · -- The later task had not started.
    have hlt : tid₂ < c₁.tasks.length := h₁.history_lt _ hold
    omega
  · exact (List.pairwise_append.mp hpair).2.2 _ hfirst _ hnew

end Pool

end Tim.Lib

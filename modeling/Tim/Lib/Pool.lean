import Mathlib.Algebra.GroupWithZero.Nat
import Mathlib.Data.List.Induction
import Tim.Lib.Prog

/-!
# `Tim.Lib.Pool`: interleaved runs of programs over a shared state

A `Machine` answers the calls of a signature on a shared state. A `Pool` runs any number of
tasks on it. Each task is one request with the program that serves it. One step of the pool
starts a task, answers the next call of one task, drops a task that is still running, or
moves the shared state without a task (the clock). Which of these happens is the label, so
a list of labels is one interleaving and `Pool.run` computes it.

`Pool.Reach code P c₀ c` says that some run from `c₀` reaches `c` with every step allowed by
`P`. The two rules the rest of the development uses are:

* `Reach.invariant`: what holds at the start and is kept by every allowed step holds in
  every reached pool;
* `Reach.spec`: when each program meets its `Prog.Spec`, every task of every reached pool
  meets what remains of it after its own part of the history. `Reach.result_spec` reads this
  at a finished task, and `Reach.call_spec` at the next call of a running one.

The history is the list of answered calls with the task that made each of them, oldest
first. `eventsOf` is the part of one task.
-/

set_option autoImplicit false

namespace Tim.Lib

/-- A shared state that answers calls. `exec tid s o ch` is the answer to the call `o` of
task `tid` with the new state, or `none` when the call cannot go on now. The choice `ch`
carries what the surroundings decide (a failure, a random value). `release` is what happens
to the state when a running task is dropped. -/
structure Machine (S : Sig) where
  State : Type
  Choice : Type
  Env : Type
  exec : Nat → State → (o : S.Op) → Choice → Option (S.Resp o × State)
  env : State → Env → Option State
  release : Nat → State → State

/-- A request and what remains of its program, `none` once the task is dropped. -/
structure Task (S : Sig) (ε α Req : Type) where
  req : Req
  prog : Option (Prog S ε α)

/-- The result of a finished task. -/
def Task.result {S : Sig} {ε α Req : Type} (t : Task S ε α Req) : Option (Except ε α) :=
  match t.prog with
  | some (.ret a) => some (.ok a)
  | some (.raise e) => some (.error e)
  | _ => none

/-- The events of the task `tid` in a history. -/
def eventsOf {S : Sig} (hist : List (Nat × Event S)) (tid : Nat) : List (Event S) :=
  hist.filterMap fun e => if e.1 = tid then some e.2 else none

/-- Tasks over a shared state, with the history of the answered calls. The number of a task
is its place in `tasks`. -/
structure Pool {S : Sig} (M : Machine S) (Req ε α : Type) where
  shared : M.State
  tasks : List (Task S ε α Req)
  history : List (Nat × Event S)

/-- One step of a pool, as the scheduler and the surroundings choose it. -/
inductive Label {S : Sig} (M : Machine S) (Req : Type) where
  | spawn (req : Req)
  | step (tid : Nat) (ch : M.Choice)
  | cancel (tid : Nat)
  | env (e : M.Env)

section Events
variable {S : Sig}

/-- Nobody has made a call in an empty history. -/
@[simp] theorem eventsOf_nil (tid : Nat) : eventsOf ([] : List (Nat × Event S)) tid = [] := rfl

/-- The calls of a task in two histories in a row. -/
theorem eventsOf_append (h₁ h₂ : List (Nat × Event S)) (tid : Nat) :
    eventsOf (h₁ ++ h₂) tid = eventsOf h₁ tid ++ eventsOf h₂ tid := by
  simp [eventsOf, List.filterMap_append]

/-- A new call of the task itself comes after its earlier ones. -/
@[simp] theorem eventsOf_append_self (hist : List (Nat × Event S)) (tid : Nat) (e : Event S) :
    eventsOf (hist ++ [(tid, e)]) tid = eventsOf hist tid ++ [e] := by
  simp [eventsOf]

/-- The calls of a task around one of its own, which stays where it is. -/
theorem eventsOf_split (h₁ h₂ : List (Nat × Event S)) (tid : Nat) (e : Event S) :
    eventsOf (h₁ ++ (tid, e) :: h₂) tid = eventsOf h₁ tid ++ e :: eventsOf h₂ tid := by
  simp [eventsOf]

/-- A new call of another task changes nothing for this one. -/
@[simp] theorem eventsOf_append_ne (hist : List (Nat × Event S)) {tid tid' : Nat}
    (e : Event S) (h : tid ≠ tid') :
    eventsOf (hist ++ [(tid, e)]) tid' = eventsOf hist tid' := by
  simp [eventsOf, h]

/-- Where an element of an extended history is: at its end, or before it. -/
theorem snoc_eq_split {α : Type} {l l₁ l₂ : List α} {x y : α} (h : l ++ [x] = l₁ ++ y :: l₂) :
    l₂ = [] ∧ l = l₁ ∧ x = y ∨ ∃ l', l₂ = l' ++ [x] ∧ l = l₁ ++ y :: l' := by
  rcases List.eq_nil_or_concat l₂ with rfl | ⟨l', z, rfl⟩
  · obtain ⟨hl, hxy⟩ := List.append_inj' h rfl
    exact .inl ⟨rfl, hl, List.head_eq_of_cons_eq hxy⟩
  · have hassoc : l₁ ++ y :: (l' ++ [z]) = (l₁ ++ y :: l') ++ [z] := by simp
    rw [List.concat_eq_append, hassoc] at h
    obtain ⟨hl, hxz⟩ := List.append_inj' h rfl
    cases List.head_eq_of_cons_eq hxz
    exact .inr ⟨l', List.concat_eq_append, hl⟩

/-- The part of a history before and after one of its places. -/
theorem split_of_getElem? {α : Type} {l : List α} {i : Nat} {x : α} (h : l[i]? = some x) :
    l = l.take i ++ x :: l.drop (i + 1) := by
  obtain ⟨hlt, rfl⟩ := List.getElem?_eq_some_iff.mp h
  rw [← List.drop_eq_getElem_cons hlt, List.take_append_drop]

/-- A task has made a call exactly when the history has it under the id of the task. -/
theorem mem_eventsOf {hist : List (Nat × Event S)} {tid : Nat} {e : Event S} :
    e ∈ eventsOf hist tid ↔ (tid, e) ∈ hist := by
  simp [eventsOf]

end Events

namespace Pool

variable {S : Sig} {M : Machine S} {Req ε α : Type}

/-- The pool with no task. -/
def init (s : M.State) : Pool M Req ε α := ⟨s, [], []⟩

variable (code : Req → Prog S ε α)

/-- One step. A label that does not apply gives `none`. -/
def next (c : Pool M Req ε α) : Label M Req → Option (Pool M Req ε α)
  | .spawn req => some { c with tasks := c.tasks ++ [⟨req, some (code req)⟩] }
  | .step tid ch =>
      match c.tasks[tid]? with
      | some ⟨req, some (.op o k)⟩ =>
          match M.exec tid c.shared o ch with
          | some (r, s) => some {
              shared := s
              tasks := c.tasks.set tid ⟨req, some (k r)⟩
              history := c.history ++ [(tid, ⟨o, r⟩)] }
          | none => none
      | _ => none
  | .cancel tid =>
      match c.tasks[tid]? with
      | some ⟨req, some (.op _ _)⟩ => some { c with
          shared := M.release tid c.shared
          tasks := c.tasks.set tid ⟨req, none⟩ }
      | _ => none
  | .env e =>
      match M.env c.shared e with
      | some s => some { c with shared := s }
      | none => none

/-- The four kinds of step as a relation, with what each of them found and left. -/
inductive Next (c : Pool M Req ε α) : Label M Req → Pool M Req ε α → Prop
  | spawn (req : Req) :
      Next c (.spawn req) { c with tasks := c.tasks ++ [⟨req, some (code req)⟩] }
  | step (tid : Nat) (ch : M.Choice) (req : Req) (o : S.Op) (k : S.Resp o → Prog S ε α)
      (r : S.Resp o) (s : M.State)
      (htask : c.tasks[tid]? = some ⟨req, some (.op o k)⟩)
      (hexec : M.exec tid c.shared o ch = some (r, s)) :
      Next c (.step tid ch) {
        shared := s
        tasks := c.tasks.set tid ⟨req, some (k r)⟩
        history := c.history ++ [(tid, ⟨o, r⟩)] }
  | cancel (tid : Nat) (req : Req) (o : S.Op) (k : S.Resp o → Prog S ε α)
      (htask : c.tasks[tid]? = some ⟨req, some (.op o k)⟩) :
      Next c (.cancel tid) { c with
        shared := M.release tid c.shared
        tasks := c.tasks.set tid ⟨req, none⟩ }
  | env (e : M.Env) (s : M.State) (henv : M.env c.shared e = some s) :
      Next c (.env e) { c with shared := s }

/-- Everything that a step of the pool can be. The invariants of this file are derived from these
cases, and none of them unfolds `next`. -/
theorem next_cases {c c' : Pool M Req ε α} {l : Label M Req} (h : next code c l = some c') :
    Next code c l c' := by
  cases l with
  | spawn req =>
      cases h
      exact .spawn req
  | step tid ch =>
      simp only [next] at h
      split at h
      · rename_i req o k htask
        split at h
        · rename_i r s hexec
          cases h
          exact .step tid ch req o k r s htask hexec
        · cases h
      · cases h
  | cancel tid =>
      simp only [next] at h
      split at h
      · rename_i req o k htask
        cases h
        exact .cancel tid req o k htask
      · cases h
  | env e =>
      simp only [next] at h
      split at h
      · rename_i s henv
        cases h
        exact .env e s henv
      · cases h

/-- `Reach code P c₀ c`: a run from `c₀` reaches `c`, and `P` allows each of its steps. -/
inductive Reach (P : Pool M Req ε α → Label M Req → Prop) (c₀ : Pool M Req ε α) :
    Pool M Req ε α → Prop
  | refl : Reach P c₀ c₀
  | tail {c c' : Pool M Req ε α} (l : Label M Req) (hr : Reach P c₀ c) (hP : P c l)
      (hn : next code c l = some c') : Reach P c₀ c'

/-- The guard that allows every step. -/
def Any (_ : Pool M Req ε α) (_ : Label M Req) : Prop := True

/-- The pool after a list of labels, each of them checked with `p` first. -/
def run (p : Pool M Req ε α → Label M Req → Bool) (c : Pool M Req ε α) :
    List (Label M Req) → Option (Pool M Req ε α)
  | [] => some c
  | l :: ls => if p c l then (next code c l).bind fun c' => run p c' ls else none

variable {code} {P : Pool M Req ε α → Label M Req → Prop} {c₀ c c' : Pool M Req ε α}

/-- Runs in a row are a run. -/
theorem Reach.trans (h₁ : Reach code P c₀ c) (h₂ : Reach code P c c') :
    Reach code P c₀ c' := by
  induction h₂ with
  | refl => exact h₁
  | tail l _ hP hn ih => exact .tail l ih hP hn

/-- A weaker guard allows more runs. -/
theorem Reach.mono {P' : Pool M Req ε α → Label M Req → Prop}
    (h : Reach code P c₀ c) (hP : ∀ c l, P c l → P' c l) : Reach code P' c₀ c := by
  induction h with
  | refl => exact .refl
  | tail l _ hl hn ih => exact .tail l ih (hP _ _ hl) hn

/-- A list of labels that the pool can follow is a run. Each label is tested where it is used, so
that the run is one under the assumption `P`. -/
theorem reach_of_run {p : Pool M Req ε α → Label M Req → Bool}
    (hp : ∀ c l, p c l = true → P c l) {ls : List (Label M Req)}
    (h : run code p c₀ ls = some c) : Reach code P c₀ c := by
  induction ls generalizing c₀ with
  | nil =>
      cases h
      exact .refl
  | cons l ls ih =>
      simp only [run] at h
      split at h
      · rename_i hl
        obtain ⟨c₁, hn, hrest⟩ := Option.bind_eq_some_iff.mp h
        exact Reach.trans (.tail l .refl (hp _ _ hl) hn) (ih hrest)
      · cases h

/-- A computed run that ends in a pool with `q` is a run that reaches such a pool. -/
theorem exists_reach (code : Req → Prog S ε α) (p : Pool M Req ε α → Label M Req → Bool)
    (q : Pool M Req ε α → Bool) (c₀ : Pool M Req ε α) (ls : List (Label M Req))
    (h : (run code p c₀ ls).any q = true) :
    ∃ c, Reach code (fun c l => p c l = true) c₀ c ∧ q c = true := by
  cases hrun : run code p c₀ ls with
  | none =>
      rw [hrun] at h
      cases h
  | some c =>
      rw [hrun] at h
      exact ⟨c, reach_of_run (fun _ _ hp => hp) hrun, h⟩

/-- The invariant rule. -/
theorem Reach.invariant {I : Pool M Req ε α → Prop} (h : Reach code P c₀ c) (h₀ : I c₀)
    (hstep : ∀ c l c', Reach code P c₀ c → P c l → Next code c l c' → I c → I c') : I c := by
  induction h with
  | refl => exact h₀
  | tail l hr hP hn ih => exact hstep _ l _ hr hP (next_cases code hn) ih

/-- A task after a step was there before it, with the same request, or the step has started
it. -/
theorem Next.task_back {l : Label M Req} (hn : Next code c l c') {tid : Nat}
    {t : Task S ε α Req} (ht : c'.tasks[tid]? = some t) :
    (∃ t', c.tasks[tid]? = some t' ∧ t'.req = t.req) ∨ l = .spawn t.req := by
  have hset : ∀ (tid' : Nat) (u v : Task S ε α Req), c.tasks[tid']? = some u →
      v.req = u.req → (c.tasks.set tid' v)[tid]? = some t →
      ∃ t', c.tasks[tid]? = some t' ∧ t'.req = t.req := by
    intro tid' u v hu hv hget
    by_cases heq : tid' = tid
    · subst heq
      rw [List.getElem?_set_self (List.getElem?_eq_some_iff.mp hu).1] at hget
      cases hget
      exact ⟨u, hu, hv.symm⟩
    · rw [List.getElem?_set_ne heq] at hget
      exact ⟨t, hget, rfl⟩
  cases hn with
  | spawn req =>
      rcases Nat.lt_or_ge tid c.tasks.length with hlt | hge
      · rw [List.getElem?_append_left hlt] at ht
        exact .inl ⟨t, ht, rfl⟩
      · rw [List.getElem?_append_right hge, List.getElem?_singleton] at ht
        split at ht
        · cases ht
          exact .inr rfl
        · cases ht
  | step tid' ch req o k r s htask hexec =>
      exact .inl (hset tid' ⟨req, some (.op o k)⟩ ⟨req, some (k r)⟩ htask rfl ht)
  | cancel tid' req o k htask =>
      exact .inl (hset tid' ⟨req, some (.op o k)⟩ ⟨req, none⟩ htask rfl ht)
  | env e s henv => exact .inl ⟨t, ht, rfl⟩

/-- A task that has made a call before a step has the same request after it. -/
theorem Next.req_of_event {l : Label M Req} (hn : Next code c l c') {tid : Nat}
    {t : Task S ε α Req} (hlt : tid < c.tasks.length) (ht : c'.tasks[tid]? = some t) :
    ∃ t', c.tasks[tid]? = some t' ∧ t'.req = t.req := by
  rcases hn.task_back ht with hback | rfl
  · exact hback
  · cases hn with
    | spawn req =>
        rw [List.getElem?_append_left hlt] at ht
        exact ⟨t, ht, rfl⟩

/-- A history only grows. -/
theorem Reach.history_append (h : Reach code P c₀ c) :
    ∃ later, c.history = c₀.history ++ later := by
  refine h.invariant (I := fun c => ∃ later, c.history = c₀.history ++ later) ⟨[], by simp⟩ ?_
  intro c l c' _ _ hn ⟨later, hl⟩
  cases hn with
  | spawn req => exact ⟨later, hl⟩
  | step tid ch req o k r s htask hexec =>
      exact ⟨later ++ [(tid, ⟨o, r⟩)], by simp [hl]⟩
  | cancel tid req o k htask => exact ⟨later, hl⟩
  | env e s henv => exact ⟨later, hl⟩

/-- A task keeps its number and its request, and once it has a result it stays as it is. -/
theorem Reach.task_persists (h : Reach code P c₀ c) {tid : Nat} {t : Task S ε α Req}
    (ht : c₀.tasks[tid]? = some t) :
    ∃ t', c.tasks[tid]? = some t' ∧ t'.req = t.req ∧ (t.result.isSome → t' = t) := by
  refine h.invariant
    (I := fun c => ∃ t', c.tasks[tid]? = some t' ∧ t'.req = t.req ∧ (t.result.isSome → t' = t))
    ⟨t, ht, rfl, fun _ => rfl⟩ ?_
  rintro c l c' _ _ hn ⟨t', ht', hreq, hres⟩
  -- A task that makes a call or is dropped was still running, so it had no result.
  have hset : ∀ (tid' : Nat) (u v : Task S ε α Req), c.tasks[tid']? = some u →
      v.req = u.req → u.result = none →
      ∃ t'', (c.tasks.set tid' v)[tid]? = some t'' ∧ t''.req = t.req
        ∧ (t.result.isSome → t'' = t) := by
    intro tid' u v hu hv hnone
    by_cases heq : tid' = tid
    · subst heq
      rw [ht'] at hu
      cases hu
      refine ⟨v, ?_, hv.trans hreq, fun hsome => ?_⟩
      · have hlt := (List.getElem?_eq_some_iff.mp ht').1
        simp [hlt]
      · have := hres hsome
        subst this
        simp [hnone] at hsome
    · exact ⟨t', by rw [List.getElem?_set_ne heq]; exact ht', hreq, hres⟩
  cases hn with
  | spawn req =>
      exact ⟨t', by rw [List.getElem?_append_left (List.getElem?_eq_some_iff.mp ht').1]; exact ht',
        hreq, hres⟩
  | step tid' ch req o k r s htask hexec => exact hset tid' _ _ htask rfl rfl
  | cancel tid' req o k htask => exact hset tid' _ _ htask rfl rfl
  | env e s henv => exact ⟨t', ht', hreq, hres⟩

/-! ### The program logic in a pool -/

/-- Every event belongs to a task that has been started. -/
theorem Reach.history_lt {s : M.State} (h : Reach code P (init s) c) :
    ∀ e ∈ c.history, e.1 < c.tasks.length := by
  refine h.invariant (I := fun c => ∀ e ∈ c.history, e.1 < c.tasks.length) (by simp [init]) ?_
  intro c l c' _ _ hn hlt
  cases hn with
  | spawn req =>
      intro e he
      have := hlt e he
      simp only [List.length_append, List.length_cons, List.length_nil]
      omega
  | step tid ch req o k r s htask hexec =>
      have hlen := (List.getElem?_eq_some_iff.mp htask).1
      intro e he
      simp only [List.length_set]
      rcases List.mem_append.mp he with he | he
      · exact hlt e he
      · rw [List.mem_singleton.mp he]
        exact hlen
  | cancel tid req o k htask =>
      intro e he
      simp only [List.length_set]
      exact hlt e he
  | env e s henv => exact hlt

/-- A task that is not there yet has made no call. -/
theorem eventsOf_eq_nil {hist : List (Nat × Event S)} {n : Nat} (h : ∀ e ∈ hist, e.1 < n) :
    eventsOf hist n = [] := by
  rw [eventsOf, List.filterMap_eq_nil_iff]
  intro e he
  have := h e he
  rw [if_neg (by omega)]

/-- Each running task meets what remains of its program's specification after its own
events. -/
theorem Reach.spec {φ : Req → List (Event S) → S.Op → Prop}
    {ψ : Req → List (Event S) → Except ε α → Prop} {s : M.State}
    (hcode : ∀ req, (code req).Spec (φ req) (ψ req) [])
    (h : Reach code P (init s) c) {tid : Nat} {t : Task S ε α Req} {p : Prog S ε α}
    (ht : c.tasks[tid]? = some t) (hp : t.prog = some p) :
    p.Spec (φ t.req) (ψ t.req) (eventsOf c.history tid) := by
  refine h.invariant
    (I := fun c => ∀ tid t p, c.tasks[tid]? = some t → t.prog = some p →
      p.Spec (φ t.req) (ψ t.req) (eventsOf c.history tid))
    (by simp [init]) ?_ tid t p ht hp
  intro c l c' hr _ hn ih tid t p ht hp
  cases hn with
  | spawn req =>
      rcases Nat.lt_or_ge tid c.tasks.length with hlt | hge
      · rw [List.getElem?_append_left hlt] at ht
        exact ih tid t p ht hp
      · -- The new task starts with no events of its own.
        rw [List.getElem?_append_right hge, List.getElem?_singleton] at ht
        split at ht
        · cases ht
          cases hp
          have heq : tid = c.tasks.length := by omega
          rw [heq, eventsOf_eq_nil hr.history_lt]
          exact hcode req
        · cases ht
  | step tid' ch req o k r s htask hexec =>
      by_cases heq : tid' = tid
      · subst heq
        rw [List.getElem?_set_self (List.getElem?_eq_some_iff.mp htask).1] at ht
        cases ht
        cases hp
        rw [eventsOf_append_self]
        exact (ih tid' _ _ htask rfl).2 r
      · rw [List.getElem?_set_ne heq] at ht
        rw [eventsOf_append_ne _ _ heq]
        exact ih tid t p ht hp
  | cancel tid' req o k htask =>
      by_cases heq : tid' = tid
      · subst heq
        rw [List.getElem?_set_self (List.getElem?_eq_some_iff.mp htask).1] at ht
        cases ht
        cases hp
      · rw [List.getElem?_set_ne heq] at ht
        exact ih tid t p ht hp
  | env e s henv => exact ih tid t p ht hp

/-- A finished task's result is one that its specification allows after its events. -/
theorem Reach.result_spec {φ : Req → List (Event S) → S.Op → Prop}
    {ψ : Req → List (Event S) → Except ε α → Prop} {s : M.State}
    (hcode : ∀ req, (code req).Spec (φ req) (ψ req) [])
    (h : Reach code P (init s) c) {tid : Nat} {t : Task S ε α Req} {x : Except ε α}
    (ht : c.tasks[tid]? = some t) (hx : t.result = some x) :
    ψ t.req (eventsOf c.history tid) x := by
  unfold Task.result at hx
  split at hx
  · rename_i a hp
    cases hx
    exact h.spec hcode ht hp
  · rename_i e hp
    cases hx
    exact h.spec hcode ht hp
  · cases hx

/-- The next call of a running task is one that its specification allows after its
events. -/
theorem Reach.call_spec {φ : Req → List (Event S) → S.Op → Prop}
    {ψ : Req → List (Event S) → Except ε α → Prop} {s : M.State}
    (hcode : ∀ req, (code req).Spec (φ req) (ψ req) [])
    (h : Reach code P (init s) c) {tid : Nat} {req : Req} {o : S.Op}
    {k : S.Resp o → Prog S ε α} (ht : c.tasks[tid]? = some ⟨req, some (.op o k)⟩) :
    φ req (eventsOf c.history tid) o :=
  (h.spec hcode ht rfl).1

/-- Every event of a task was a call that its specification allows after the events before
it. -/
theorem Reach.event_spec {φ : Req → List (Event S) → S.Op → Prop}
    {ψ : Req → List (Event S) → Except ε α → Prop} {s : M.State}
    (hcode : ∀ req, (code req).Spec (φ req) (ψ req) [])
    (h : Reach code P (init s) c) {tid : Nat} {t : Task S ε α Req} {h₁ h₂ : List (Event S)}
    {e : Event S} (ht : c.tasks[tid]? = some t)
    (hsplit : eventsOf c.history tid = h₁ ++ e :: h₂) : φ t.req h₁ e.op := by
  refine h.invariant
    (I := fun c => ∀ tid t h₁ e h₂, c.tasks[tid]? = some t →
      eventsOf c.history tid = h₁ ++ e :: h₂ → φ t.req h₁ e.op)
    (by simp [init]) ?_ tid t h₁ e h₂ ht hsplit
  intro c l c' hr _ hn ih tid t h₁ e h₂ ht hsplit
  cases hn with
  | spawn req =>
      rcases Nat.lt_or_ge tid c.tasks.length with hlt | hge
      · rw [List.getElem?_append_left hlt] at ht
        exact ih tid t h₁ e h₂ ht hsplit
      · have hnil : eventsOf c.history tid = [] :=
          eventsOf_eq_nil fun e he => Nat.lt_of_lt_of_le (hr.history_lt e he) hge
        rw [hnil] at hsplit
        simp at hsplit
  | step tid' ch req o k r s htask hexec =>
      by_cases heq : tid' = tid
      · subst heq
        rw [List.getElem?_set_self (List.getElem?_eq_some_iff.mp htask).1] at ht
        cases ht
        rw [eventsOf_append_self] at hsplit
        -- The event is the new one or an older one.
        rcases snoc_eq_split hsplit with ⟨-, rfl, rfl⟩ | ⟨h₂', -, hold⟩
        · exact hr.call_spec hcode htask
        · exact ih tid' ⟨req, some (.op o k)⟩ h₁ e h₂' htask hold
      · rw [List.getElem?_set_ne heq] at ht
        rw [eventsOf_append_ne _ _ heq] at hsplit
        exact ih tid t h₁ e h₂ ht hsplit
  | cancel tid' req o k htask =>
      by_cases heq : tid' = tid
      · subst heq
        rw [List.getElem?_set_self (List.getElem?_eq_some_iff.mp htask).1] at ht
        cases ht
        exact ih tid' ⟨req, some (.op o k)⟩ h₁ e h₂ htask hsplit
      · rw [List.getElem?_set_ne heq] at ht
        exact ih tid t h₁ e h₂ ht hsplit
  | env e' s henv => exact ih tid t h₁ e h₂ ht hsplit

/-- The same by the place of the event in the history. -/
theorem Reach.history_spec {φ : Req → List (Event S) → S.Op → Prop}
    {ψ : Req → List (Event S) → Except ε α → Prop} {s : M.State}
    (hcode : ∀ req, (code req).Spec (φ req) (ψ req) [])
    (h : Reach code P (init s) c) {tid : Nat} {t : Task S ε α Req}
    {h₁ h₂ : List (Nat × Event S)} {e : Event S} (ht : c.tasks[tid]? = some t)
    (hsplit : c.history = h₁ ++ (tid, e) :: h₂) : φ t.req (eventsOf h₁ tid) e.op := by
  have hevents : eventsOf c.history tid = eventsOf h₁ tid ++ e :: eventsOf h₂ tid := by
    rw [hsplit, eventsOf_split]
  exact h.event_spec hcode ht hevents

/-- The step behind an event that the run has added: the pool before it and after it, the answer
that the state gave, and the rest of the run. -/
theorem Reach.at_new_event (h : Reach code P c₀ c) {h₁ h₂ : List (Nat × Event S)} {tid : Nat}
    {e : Event S} (hsplit : c.history = h₁ ++ (tid, e) :: h₂)
    (hnew : c₀.history.length ≤ h₁.length) :
    ∃ c' c'' req k ch s', Reach code P c₀ c' ∧ next code c' (.step tid ch) = some c''
      ∧ Reach code P c'' c ∧ c'.history = h₁
      ∧ c'.tasks[tid]? = some ⟨req, some (.op e.op k)⟩ ∧ P c' (.step tid ch)
      ∧ M.exec tid c'.shared e.op ch = some (e.resp, s') := by
  induction h generalizing h₂ with
  | refl =>
      have hlen := congrArg List.length hsplit
      simp only [List.length_append, List.length_cons] at hlen
      omega
  | @tail d d' l hr hP hn ih =>
      -- An event of an earlier step has this step after it.
      have hearlier : ∀ {h₂' : List (Nat × Event S)}, d.history = h₁ ++ (tid, e) :: h₂' →
          ∃ c' c'' req k ch s', Reach code P c₀ c' ∧ next code c' (.step tid ch) = some c''
            ∧ Reach code P c'' d' ∧ c'.history = h₁
            ∧ c'.tasks[tid]? = some ⟨req, some (.op e.op k)⟩ ∧ P c' (.step tid ch)
            ∧ M.exec tid c'.shared e.op ch = some (e.resp, s') := by
        intro h₂' hold
        obtain ⟨c', c'', req, k, ch, s', hto, hstep, hfrom, hrest⟩ := ih hold
        exact ⟨c', c'', req, k, ch, s', hto, hstep, .tail l hfrom hP hn, hrest⟩
      cases next_cases code hn with
      | spawn req => exact hearlier hsplit
      | cancel tid' req o k htask => exact hearlier hsplit
      | env e' s henv => exact hearlier hsplit
      | step tid' ch req o k r s' htask hexec =>
          rcases snoc_eq_split hsplit with ⟨-, rfl, hlast⟩ | ⟨h₂', -, hold⟩
          · cases hlast
            exact ⟨d, _, req, k, ch, s', hr, hn, .refl, rfl, htask, hP, hexec⟩
          · exact hearlier hold

/-- The same from the start. -/
theorem Reach.at_event {s : M.State} (h : Reach code P (init s) c)
    {h₁ h₂ : List (Nat × Event S)} {tid : Nat} {e : Event S}
    (hsplit : c.history = h₁ ++ (tid, e) :: h₂) :
    ∃ c' req k ch s', Reach code P (init s) c' ∧ c'.history = h₁
      ∧ c'.tasks[tid]? = some ⟨req, some (.op e.op k)⟩ ∧ P c' (.step tid ch)
      ∧ M.exec tid c'.shared e.op ch = some (e.resp, s') := by
  obtain ⟨c', -, req, k, ch, s', hto, -, -, hrest⟩ := h.at_new_event hsplit (Nat.zero_le _)
  exact ⟨c', req, k, ch, s', hto, hrest⟩

/-- An event of a later task is one that the run has added. -/
theorem Reach.length_le_of_late (h : Reach code P c₀ c) {n : Nat}
    (hold : ∀ e ∈ c₀.history, e.1 < n) {h₁ h₂ : List (Nat × Event S)} {tid : Nat} {e : Event S}
    (hsplit : c.history = h₁ ++ (tid, e) :: h₂) (htid : n ≤ tid) :
    c₀.history.length ≤ h₁.length := by
  rcases Nat.lt_or_ge h₁.length c₀.history.length with hlt | hge
  · obtain ⟨later, hlater⟩ := h.history_append
    have hat : c.history[h₁.length]? = some (tid, e) := by
      rw [hsplit]
      simp
    rw [hlater, List.getElem?_append_left hlt] at hat
    have hsmall : tid < n := hold _ (List.mem_of_getElem? hat)
    omega
  · exact hge

/-- A task that has made a call is in the pool. -/
theorem Reach.task_of_event {s : M.State} (h : Reach code P (init s) c) {tid : Nat}
    {e : Event S} (he : (tid, e) ∈ c.history) : ∃ t, c.tasks[tid]? = some t :=
  ⟨_, List.getElem?_eq_getElem (h.history_lt _ he)⟩

/-- A call that a program makes only when it has not made one of its kind before is made once
by each task. -/
theorem Reach.once {φ : Req → List (Event S) → S.Op → Prop}
    {ψ : Req → List (Event S) → Except ε α → Prop} {s : M.State}
    (hcode : ∀ req, (code req).Spec (φ req) (ψ req) []) (h : Reach code P (init s) c)
    {p : S.Op → Prop} (hfirst : ∀ req h o, φ req h o → p o → ∀ e ∈ h, ¬ p e.op) {tid i j : Nat}
    {e e' : Event S} (hi : c.history[i]? = some (tid, e)) (hj : c.history[j]? = some (tid, e'))
    (he : p e.op) (he' : p e'.op) : i = j := by
  obtain ⟨t, ht⟩ := h.task_of_event (List.mem_of_getElem? hi)
  -- An earlier call of the kind would be among the events before the later one.
  have hlate : ∀ {i j : Nat} {e e' : Event S}, c.history[i]? = some (tid, e) →
      c.history[j]? = some (tid, e') → p e.op → p e'.op → ¬ i < j := by
    intro i j e e' hi hj he he' hlt
    have hspec := h.history_spec hcode ht (split_of_getElem? hj)
    have hmem : (tid, e) ∈ c.history.take j := by
      refine List.mem_of_getElem? (i := i) ?_
      rw [List.getElem?_take_of_lt hlt]
      exact hi
    exact hfirst _ _ _ hspec he' e (mem_eventsOf.mpr hmem) he
  have hij := hlate hi hj he he'
  have hji := hlate hj hi he' he
  omega

/-- What each task counts among its own events, all tasks together count at most once in the
history. -/
theorem sum_tasks_le {hist : List (Nat × Event S)} {p : Event S → Bool}
    {f : Task S ε α Req → Nat} (tasks : List (Task S ε α Req))
    (h : ∀ tid t, tasks[tid]? = some t → f t ≤ (eventsOf hist tid).countP p) :
    (tasks.map f).sum ≤ hist.countP fun e => p e.2 := by
  -- The induction is on the tasks from the last one, over the events of the tasks so far.
  have hlt : (tasks.map f).sum ≤ hist.countP fun e => decide (e.1 < tasks.length) && p e.2 := by
    induction tasks using List.reverseRecOn with
    | nil => simp
    | append_singleton ts t ih =>
        have hlast : f t ≤ (eventsOf hist ts.length).countP p := h ts.length t (by simp)
        have hrest := ih fun tid u hu => h tid u (by
          rw [List.getElem?_append_left (List.getElem?_eq_some_iff.mp hu).1]
          exact hu)
        have hsplit : (hist.countP fun e => decide (e.1 < (ts ++ [t]).length) && p e.2)
            = (hist.countP fun e => decide (e.1 < ts.length) && p e.2)
              + (eventsOf hist ts.length).countP p := by
          clear h ih hlast hrest
          induction hist with
          | nil => rfl
          | cons e hist ihh =>
              have hcons : eventsOf (e :: hist) ts.length
                  = (if e.1 = ts.length then [e.2] else []) ++ eventsOf hist ts.length := by
                unfold eventsOf
                rw [List.filterMap_cons]
                split <;> split <;> simp_all
              rw [List.countP_cons, List.countP_cons, ihh, hcons, List.countP_append]
              simp only [List.length_append, List.length_cons, List.length_nil]
              rcases Nat.lt_trichotomy e.1 ts.length with hc | hc | hc
              · have h1 : e.1 < ts.length + 1 := by omega
                have h2 : e.1 ≠ ts.length := by omega
                simp [hc, h1, h2]
                omega
              · have h1 : ¬ e.1 < ts.length := by omega
                cases hp : p e.2 <;> simp [hc, hp]
                omega
              · have h1 : ¬ e.1 < ts.length + 1 := by omega
                have h2 : ¬ e.1 < ts.length := by omega
                have h3 : e.1 ≠ ts.length := by omega
                simp [h1, h2, h3]
        rw [List.map_append, List.sum_append, hsplit]
        simp only [List.map_cons, List.map_nil, List.sum_cons, List.sum_nil]
        omega
  refine Nat.le_trans hlt (List.countP_mono_left ?_)
  intro e _ he
  simp only [Bool.and_eq_true] at he
  exact he.2

end Pool

end Tim.Lib

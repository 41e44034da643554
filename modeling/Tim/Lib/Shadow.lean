import Tim.Lib.Pool

/-!
# `Tim.Lib.Shadow`: runs with the work of some tasks left out

Two runs of one server, with the same requests in the same order. Some of the requests are
`hidden`: in the second run their calls are answered otherwise, so the two shared states differ,
in a relation `R`. A `Shadow` is a pool of the second run next to one of the first. The tasks that
are not hidden have the same remaining programs and the same events in both.

`Reach.shadow` builds the second run along the first one. `Hides` is what the machine has to show
for it, call by call: a call of a visible task gets the same answer from both states, and a call of
a hidden task has some answer in the second run.
-/

set_option autoImplicit false

namespace Tim.Lib

variable {S : Sig} {ε α Req : Type}

/-- The task makes no further call. -/
def Task.Still (t : Task S ε α Req) : Prop := ∀ o k, t.prog ≠ some (.op o k)

/-- The two tasks are one, or they are hidden and have both made their last call. -/
def Alike (hidden : Req → Prop) (t u : Task S ε α Req) : Prop :=
  u = t ∨ hidden t.req ∧ u.req = t.req ∧ t.Still ∧ u.Still

namespace Pool

variable {M : Machine S} {code : Req → Prog S ε α}
  {P P' : Pool M Req ε α → Label M Req → Prop} {hidden : Req → Prop}
  {R : M.State → M.State → Prop} {s₀ : M.State} {c d : Pool M Req ε α}

/-- The pool `d` of the second run, next to `c`. -/
structure Shadow (hidden : Req → Prop) (R : M.State → M.State → Prop) (c d : Pool M Req ε α) :
    Prop where
  shared : R c.shared d.shared
  length : d.tasks.length = c.tasks.length
  tasks : ∀ tid : Nat, Option.Rel (Alike hidden) c.tasks[tid]? d.tasks[tid]?
  events : ∀ (tid : Nat) (t : Task S ε α Req), c.tasks[tid]? = some t → ¬ hidden t.req →
    eventsOf d.history tid = eventsOf c.history tid

/-- The calls of the visible tasks get the same answers from related states, and those of the
hidden tasks get some answer that keeps the states related. `P'` guards the second run. -/
structure Hides (code : Req → Prog S ε α) (P P' : Pool M Req ε α → Label M Req → Prop)
    (hidden : Req → Prop) (R : M.State → M.State → Prop) (s₀ : M.State) : Prop where
  start : R s₀ s₀
  allowed : ∀ d l, (∀ tid ch, l ≠ .step tid ch) → P' d l
  seen : ∀ (c d : Pool M Req ε α) (tid : Nat) (ch : M.Choice) (req : Req) (o : S.Op)
    (k : S.Resp o → Prog S ε α) (r : S.Resp o) (s : M.State),
    Reach code P (init s₀) c → Reach code P' (init s₀) d → Shadow hidden R c d → ¬ hidden req →
    c.tasks[tid]? = some ⟨req, some (.op o k)⟩ → d.tasks[tid]? = some ⟨req, some (.op o k)⟩ →
    M.exec tid c.shared o ch = some (r, s) →
    P' d (.step tid ch) ∧ ∃ s', M.exec tid d.shared o ch = some (r, s') ∧ R s s'
  hid : ∀ (c d : Pool M Req ε α) (tid : Nat) (ch : M.Choice) (req : Req) (o : S.Op)
    (k : S.Resp o → Prog S ε α) (r : S.Resp o) (s : M.State),
    Reach code P (init s₀) c → Reach code P' (init s₀) d → Shadow hidden R c d → hidden req →
    c.tasks[tid]? = some ⟨req, some (.op o k)⟩ → d.tasks[tid]? = some ⟨req, some (.op o k)⟩ →
    M.exec tid c.shared o ch = some (r, s) →
    ∃ ch' r' s', P' d (.step tid ch') ∧ M.exec tid d.shared o ch' = some (r', s') ∧ R s s'
      ∧ Alike hidden (⟨req, some (k r)⟩ : Task S ε α Req) ⟨req, some (k r')⟩
  release : ∀ tid s s', R s s' → R (M.release tid s) (M.release tid s')
  env : ∀ s s' e s₁, R s s' → M.env s e = some s₁ → ∃ s₁', M.env s' e = some s₁' ∧ R s₁ s₁'

/-- A task that is about to make a call is the same in both pools. -/
theorem Shadow.running (h : Shadow hidden R c d) {tid : Nat} {req : Req} {o : S.Op}
    {k : S.Resp o → Prog S ε α} (ht : c.tasks[tid]? = some ⟨req, some (.op o k)⟩) :
    d.tasks[tid]? = some ⟨req, some (.op o k)⟩ := by
  have hrel := h.tasks tid
  rw [ht] at hrel
  cases hu : d.tasks[tid]? with
  | none =>
      rw [hu] at hrel
      cases hrel
  | some u =>
      rw [hu] at hrel
      cases hrel with
      | some halike =>
          rcases halike with rfl | hstill
          · rfl
          · exact absurd rfl (hstill.2.2.1 o k)

/-- The two runs have the same requests, the hidden ones included. -/
theorem Shadow.reqs (h : Shadow hidden R c d) :
    d.tasks.map (·.req) = c.tasks.map (·.req) := by
  refine List.ext_getElem? fun tid => ?_
  rw [List.getElem?_map, List.getElem?_map]
  have hrel := h.tasks tid
  cases ht : c.tasks[tid]? with
  | none =>
      rw [ht] at hrel
      cases hu : d.tasks[tid]? with
      | none => rfl
      | some u =>
          rw [hu] at hrel
          cases hrel
  | some t =>
      rw [ht] at hrel
      cases hu : d.tasks[tid]? with
      | none =>
          rw [hu] at hrel
          cases hrel
      | some u =>
          rw [hu] at hrel
          cases hrel with
          | some halike =>
              rcases halike with rfl | ⟨-, hreq, -⟩
              · rfl
              · exact congrArg some hreq

/-- The pools after a task of both has moved. -/
theorem Shadow.set (h : Shadow hidden R c d) {tid : Nat} {u v t t' : Task S ε α Req}
    (hu : c.tasks[tid]? = some u) (hv : d.tasks[tid]? = some v) (ht : Alike hidden t t') (n : Nat) :
    Option.Rel (Alike hidden) (c.tasks.set tid t)[n]? (d.tasks.set tid t')[n]? := by
  by_cases heq : tid = n
  · subst heq
    rw [List.getElem?_set_self (List.getElem?_eq_some_iff.mp hu).1,
      List.getElem?_set_self (List.getElem?_eq_some_iff.mp hv).1]
    exact .some ht
  · rw [List.getElem?_set_ne heq, List.getElem?_set_ne heq]
    exact h.tasks n

/-- The request of a task is the same after a step of any task. -/
theorem req_of_set {tasks : List (Task S ε α Req)} {tid n : Nat} {u v t : Task S ε α Req}
    (hu : tasks[tid]? = some u) (ht : (tasks.set tid v)[n]? = some t) (hreq : v.req = u.req) :
    ∃ t', tasks[n]? = some t' ∧ t'.req = t.req := by
  by_cases heq : tid = n
  · subst heq
    rw [List.getElem?_set_self (List.getElem?_eq_some_iff.mp hu).1] at ht
    cases ht
    exact ⟨u, hu, hreq.symm⟩
  · rw [List.getElem?_set_ne heq] at ht
    exact ⟨t, ht, rfl⟩

/-- One step of the first run, and the step of the second run for it. -/
theorem Shadow.next (hh : Hides code P P' hidden R s₀) (hc : Reach code P (init s₀) c)
    (hd : Reach code P' (init s₀) d) (h : Shadow hidden R c d) {l : Label M Req}
    {c' : Pool M Req ε α} (hn : Next code c l c') :
    ∃ l' d', P' d l' ∧ Pool.next code d l' = some d' ∧ Shadow hidden R c' d' := by
  cases hn with
  | spawn req =>
      refine ⟨.spawn req, _, hh.allowed d _ (fun _ _ h => by cases h), rfl, h.shared, ?_, ?_, ?_⟩
      · simp [h.length]
      · intro tid
        rcases Nat.lt_trichotomy tid c.tasks.length with hlt | rfl | hgt
        · have hlt' : tid < d.tasks.length := h.length ▸ hlt
          rw [List.getElem?_append_left hlt, List.getElem?_append_left hlt']
          exact h.tasks tid
        · have hlast : (d.tasks ++ [(⟨req, some (code req)⟩ : Task S ε α Req)])[c.tasks.length]?
              = some ⟨req, some (code req)⟩ := by
            rw [← h.length]
            simp
          rw [hlast]
          simp only [List.length_append, List.length_cons, List.length_nil, Nat.zero_add,
            Nat.lt_add_one, getElem?_pos, List.getElem_append_right, Nat.le_refl, Nat.sub_self,
            List.getElem_cons_zero]
          exact .some (.inl rfl)
        · have hc' : (c.tasks ++ [(⟨req, some (code req)⟩ : Task S ε α Req)])[tid]? = none :=
            List.getElem?_eq_none (by simp; omega)
          have hd' : (d.tasks ++ [(⟨req, some (code req)⟩ : Task S ε α Req)])[tid]? = none :=
            List.getElem?_eq_none (by simp [h.length]; omega)
          rw [hc', hd']
          exact .none
      · intro tid t ht hvisible
        rcases Nat.lt_or_ge tid c.tasks.length with hlt | hge
        · rw [List.getElem?_append_left hlt] at ht
          exact h.events tid t ht hvisible
        · -- A task that was not there has no event in either history.
          have hc' := eventsOf_eq_nil (n := tid) fun e he =>
            Nat.lt_of_lt_of_le (hc.history_lt e he) hge
          have hd' := eventsOf_eq_nil (n := tid) fun e he =>
            Nat.lt_of_lt_of_le (hd.history_lt e he) (h.length ▸ hge)
          show eventsOf d.history tid = eventsOf c.history tid
          rw [hc', hd']
  | step tid ch req o k r s htask hexec =>
      have htask' := h.running htask
      by_cases hreq : hidden req
      · obtain ⟨ch', r', s', hP', hexec', hR, halike⟩ :=
          hh.hid c d tid ch req o k r s hc hd h hreq htask htask' hexec
        refine ⟨.step tid ch', _, hP', by simp [Pool.next, htask', hexec']; rfl, hR,
          by simp [h.length], h.set htask htask' halike, ?_⟩
        intro n t ht hvisible
        obtain ⟨t', ht', hsame⟩ := req_of_set htask ht rfl
        have hne : tid ≠ n := by
          rintro rfl
          rw [htask] at ht'
          cases ht'
          exact hvisible (hsame ▸ hreq)
        show eventsOf (d.history ++ [(tid, ⟨o, r'⟩)]) n = eventsOf (c.history ++ [(tid, ⟨o, r⟩)]) n
        rw [eventsOf_append_ne _ _ hne, eventsOf_append_ne _ _ hne]
        exact h.events n t' ht' (hsame ▸ hvisible)
      · obtain ⟨hP', s', hexec', hR⟩ :=
          hh.seen c d tid ch req o k r s hc hd h hreq htask htask' hexec
        refine ⟨.step tid ch, _, hP', by simp [Pool.next, htask', hexec']; rfl, hR,
          by simp [h.length], h.set htask htask' (.inl rfl), ?_⟩
        intro n t ht hvisible
        obtain ⟨t', ht', hsame⟩ := req_of_set htask ht rfl
        have hold := h.events n t' ht' (hsame ▸ hvisible)
        show eventsOf (d.history ++ [(tid, ⟨o, r⟩)]) n = eventsOf (c.history ++ [(tid, ⟨o, r⟩)]) n
        rw [eventsOf_append, eventsOf_append, hold]
  | cancel tid req o k htask =>
      have htask' := h.running htask
      refine ⟨.cancel tid, _, hh.allowed d _ (fun _ _ h => by cases h),
        by simp [Pool.next, htask']; rfl, hh.release tid _ _ h.shared, by simp [h.length],
        h.set htask htask' (.inl rfl), ?_⟩
      intro n t ht hvisible
      obtain ⟨t', ht', hsame⟩ := req_of_set htask ht rfl
      exact h.events n t' ht' (hsame ▸ hvisible)
  | env e s henv =>
      obtain ⟨s', henv', hR⟩ := hh.env _ _ e s h.shared henv
      exact ⟨.env e, { d with shared := s' }, hh.allowed d _ (fun _ _ h => by cases h),
        by simp [Pool.next, henv'], hR, h.length, h.tasks, h.events⟩

/-- The run next to a run. -/
theorem Reach.shadow (hh : Hides code P P' hidden R s₀) (hc : Reach code P (init s₀) c) :
    ∃ d, Reach code P' (init s₀) d ∧ Shadow hidden R c d := by
  induction hc with
  | refl =>
      exact ⟨init s₀, .refl, hh.start, rfl, fun _ => .none, fun _ _ ht => nomatch ht⟩
  | tail l hr _ hn ih =>
      obtain ⟨d, hd, h⟩ := ih
      obtain ⟨l', d', hP', hnext, h'⟩ := h.next hh hr hd (next_cases code hn)
      exact ⟨d', .tail l' hd hP' hnext, h'⟩

end Pool

end Tim.Lib

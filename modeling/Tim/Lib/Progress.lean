import Tim.Lib.Object

/-!
# `Tim.Lib.Progress`: bringing the tasks of a pool to their end

A pool can be stuck. A call that waits has no answer, and when all running tasks wait for one
another, no step is left but to drop one of them. This module is about pools where that does not
happen.

`Answers ok` is the guard under which the only steps are answers to calls, with choices that `ok`
allows. `finish_task` is the rule of one task: when each call it makes while the others rest can
be answered, the task can be run to its result, by induction on what remains of its program.
`each` is the rule of all tasks: what can be reached for one task after the other, without undoing
it for those before, can be reached for all of them. `Reach.keeps_running` says that no task is
dropped on the way.
-/

set_option autoImplicit false

namespace Tim.Lib

variable {S : Sig}

namespace Pool

variable {M : Machine S} {Req ε α : Type}

/-- The guard that allows the answers whose choice `ok` allows, and no other step. -/
def Answers (ok : M.Choice → Prop) (_ : Pool M Req ε α) : Label M Req → Prop
  | .step _ ch => ok ch
  | _ => False

/-- What remains of the program of a task, unless the task is dropped. -/
def rest (c : Pool M Req ε α) (tid : Nat) : Option (Prog S ε α) :=
  c.tasks[tid]?.bind fun t => t.prog

/-- The task has its result, unless it is dropped. -/
def Finished (c : Pool M Req ε α) (tid : Nat) : Prop :=
  ∀ t, c.tasks[tid]? = some t → t.prog.isSome → t.result.isSome

variable {code : Req → Prog S ε α} {P : Pool M Req ε α → Label M Req → Prop}
  {ok : M.Choice → Prop} {c c' : Pool M Req ε α}

/-- Answers keep the tasks that are there, and drop none. -/
theorem Reach.keeps_running (h : Reach code (Answers ok) c c') :
    c'.tasks.length = c.tasks.length
      ∧ ∀ tid, (c'.rest tid).isSome = (c.rest tid).isSome := by
  refine h.invariant (I := fun c' => c'.tasks.length = c.tasks.length
    ∧ ∀ tid, (c'.rest tid).isSome = (c.rest tid).isSome) ⟨rfl, fun _ => rfl⟩ ?_
  intro c₁ l c₂ _ hP hn ⟨hlen, hrun⟩
  cases hn with
  | spawn req => exact hP.elim
  | cancel tid req o k htask => exact hP.elim
  | env e s henv => exact hP.elim
  | step tid ch req o k r s htask hexec =>
      refine ⟨by simpa using hlen, fun tid' => ?_⟩
      rw [← hrun tid']
      by_cases heq : tid = tid'
      · subst heq
        simp [rest, htask, List.getElem?_set_self (List.getElem?_eq_some_iff.mp htask).1]
      · simp [rest, List.getElem?_set_ne heq]

/-- A list with an element put in its own place. -/
theorem set_self_of_getElem? {β : Type} {l : List β} {i : Nat} {b : β} (h : l[i]? = some b) :
    l.set i b = l := by
  obtain ⟨hlt, rfl⟩ := List.getElem?_eq_some_iff.mp h
  exact List.set_getElem_self hlt

/-- The rule of one task. `I` is what holds while this task runs and the others rest. -/
theorem finish_task {I : Pool M Req ε α → Prop} {tid : Nat}
    (hready : ∀ c req o k, I c → c.tasks[tid]? = some ⟨req, some (.op o k)⟩ →
      ∃ ch r s, ok ch ∧ M.exec tid c.shared o ch = some (r, s))
    (hstep : ∀ c ch c', I c → ok ch → next code c (.step tid ch) = some c' → I c')
    (hI : I c) {req : Req} {p : Prog S ε α} (ht : c.tasks[tid]? = some ⟨req, some p⟩) :
    ∃ c' t', Reach code (Answers ok) c c' ∧ I c' ∧ c'.tasks = c.tasks.set tid t'
      ∧ t'.result.isSome := by
  induction p generalizing c with
  | ret a =>
      exact ⟨c, ⟨req, some (.ret a)⟩, .refl, hI, (set_self_of_getElem? ht).symm, rfl⟩
  | raise e =>
      exact ⟨c, ⟨req, some (.raise e)⟩, .refl, hI, (set_self_of_getElem? ht).symm, rfl⟩
  | op o k ih =>
      obtain ⟨ch, r, s, hok, hexec⟩ := hready c req o k hI ht
      have hlt := (List.getElem?_eq_some_iff.mp ht).1
      let c₁ : Pool M Req ε α := {
        shared := s
        tasks := c.tasks.set tid ⟨req, some (k r)⟩
        history := c.history ++ [(tid, ⟨o, r⟩)] }
      have hnext : next code c (.step tid ch) = some c₁ := by simp [next, ht, hexec, c₁]
      have ht₁ : c₁.tasks[tid]? = some ⟨req, some (k r)⟩ := List.getElem?_set_self hlt
      obtain ⟨c', t', hreach, hI', htasks, hres⟩ := ih r (hstep c ch c₁ hI hok hnext) ht₁
      refine ⟨c', t', Reach.trans (.tail (.step tid ch) .refl hok hnext) hreach, hI', ?_, hres⟩
      rw [htasks]
      exact List.set_set ..

/-- The rule of all tasks. What can be reached for one task, and stays for the others on the way,
can be reached for all of the first `n`. -/
theorem each {J : Pool M Req ε α → Prop} {Q : Pool M Req ε α → Nat → Prop}
    (h : ∀ c tid, J c → ∃ c', Reach code P c c' ∧ J c' ∧ Q c' tid
      ∧ ∀ tid', Q c tid' → Q c' tid') (n : Nat) (hJ : J c) :
    ∃ c', Reach code P c c' ∧ J c' ∧ ∀ tid < n, Q c' tid := by
  induction n with
  | zero => exact ⟨c, .refl, hJ, fun tid hlt => absurd hlt (Nat.not_lt_zero tid)⟩
  | succ n ih =>
      obtain ⟨c₁, hreach₁, hJ₁, hQ₁⟩ := ih
      obtain ⟨c₂, hreach₂, hJ₂, hQ₂, hkeep⟩ := h c₁ n hJ₁
      refine ⟨c₂, hreach₁.trans hreach₂, hJ₂, fun tid hlt => ?_⟩
      rcases Nat.lt_succ_iff_lt_or_eq.mp hlt with hlt | rfl
      · exact hkeep tid (hQ₁ tid hlt)
      · exact hQ₂

end Pool

end Tim.Lib

import Tim.Lib.Pool

/-!
# `Tim.Lib.Object`: runs of a pool explained by a sequential object

An `Object` says what a shared thing is for: each call has one answer and one state after it. A
pool is a bad place to read that off, since its programs reach their effect in several steps and
the steps of different programs interleave. An explanation of a run is a list of calls of the
object, oldest first, each with the task it belongs to. `Explains point hist calls` says that the
answered calls of the history contribute these calls, where `point h e es` allows the event `e` of
a task with the events `h` before it to contribute `es`. So every call of the object lies at a step
of its own task, between the start and the end of the request.

`Reach.explained` is the rule: when each step of the machine moves the object as the calls that it
contributes do, every run has an explanation that is legal for the object and ends in the state
that the pool shows. `Explains.accounts` reads an explanation at one task.
-/

set_option autoImplicit false

namespace Tim.Lib

/-- A sequential object over the calls of `A`. -/
structure Object (A : Sig) where
  State : Type
  act : State → (o : A.Op) → A.Resp o × State

namespace Object

variable {A : Sig} {O : Object A}

/-- The calls, one after the other, are answered as the object answers them. -/
inductive Legal (O : Object A) (s : O.State) : List (Event A) → O.State → Prop
  | nil : Legal O s [] s
  | snoc {es : List (Event A)} {s₁ : O.State} {e : Event A} (h : Legal O s es s₁)
      (hanswer : (O.act s₁ e.op).1 = e.resp) : Legal O s (es ++ [e]) (O.act s₁ e.op).2

/-- The state after one call with its answer. -/
theorem Legal.snoc_to {s s₁ s₂ : O.State} {es : List (Event A)} {e : Event A}
    (h : Legal O s es s₁) (hact : O.act s₁ e.op = (e.resp, s₂)) : Legal O s (es ++ [e]) s₂ := by
  have hnext := h.snoc (e := e) (by rw [hact])
  rwa [hact] at hnext

/-- A list of one call. -/
theorem Legal.one {s s' : O.State} {e : Event A} (hact : O.act s e.op = (e.resp, s')) :
    Legal O s [e] s' :=
  Legal.nil.snoc_to hact

/-- Legal histories in a row are a legal history. -/
theorem Legal.trans {s s₁ s₂ : O.State} {es es' : List (Event A)} (h : Legal O s es s₁)
    (h' : Legal O s₁ es' s₂) : Legal O s (es ++ es') s₂ := by
  induction h' with
  | nil => simpa using h
  | snoc _ hanswer ih =>
      rw [← List.append_assoc]
      exact ih.snoc hanswer

/-- What holds at the start and is kept by every call holds at the end. -/
theorem Legal.invariant {s s' : O.State} {es : List (Event A)} (h : Legal O s es s')
    {I : O.State → List (Event A) → Prop} (h₀ : I s [])
    (hact : ∀ s₁ es e, I s₁ es → (O.act s₁ e.op).1 = e.resp →
      I (O.act s₁ e.op).2 (es ++ [e])) : I s' es := by
  induction h with
  | nil => exact h₀
  | snoc _ hanswer ih => exact hact _ _ _ ih hanswer

end Object

/-! ### Explanations -/

variable {S A : Sig}

/-- Which calls of an object an answered call contributes, after the task's events so far. -/
abbrev Point (S A : Sig) := List (Event S) → Event S → List (Event A) → Prop

/-- The calls of the task `tid`. -/
def tagged (tid : Nat) (es : List (Event A)) : List (Nat × Event A) := es.map fun e => (tid, e)

/-- The history contributes these calls, each at the place of its task. -/
inductive Explains (point : Point S A) : List (Nat × Event S) → List (Nat × Event A) → Prop
  | nil : Explains point [] []
  | snoc {hist : List (Nat × Event S)} {calls : List (Nat × Event A)} {tid : Nat} {e : Event S}
      {es : List (Event A)} (h : Explains point hist calls)
      (hpoint : point (eventsOf hist tid) e es) :
      Explains point (hist ++ [(tid, e)]) (calls ++ tagged tid es)

/-- The events of one task contribute these calls. -/
inductive Accounts (point : Point S A) : List (Event S) → List (Event A) → Prop
  | nil : Accounts point [] []
  | snoc {h : List (Event S)} {es : List (Event A)} {e : Event S} {es' : List (Event A)}
      (ha : Accounts point h es) (hpoint : point h e es') :
      Accounts point (h ++ [e]) (es ++ es')

/-- Without their tags, tagged events are the events themselves. -/
@[simp] theorem tagged_snd (tid : Nat) (es : List (Event A)) :
    (tagged tid es).map Prod.snd = es := by
  simp [tagged, Function.comp_def]

/-- All events with the tag of a task are events of that task. -/
@[simp] theorem eventsOf_tagged (tid : Nat) (es : List (Event A)) :
    eventsOf (tagged tid es) tid = es := by
  simp [eventsOf, tagged, List.filterMap_map, Function.comp_def]

/-- Events with the tag of one task are none of another. -/
theorem eventsOf_tagged_ne {tid tid' : Nat} (es : List (Event A)) (h : tid ≠ tid') :
    eventsOf (tagged tid es) tid' = [] := by
  simp [eventsOf, tagged, List.filterMap_map, Function.comp_def, h]

/-- An explanation of a run accounts for each task alone. -/
theorem Explains.accounts {point : Point S A} {hist : List (Nat × Event S)}
    {calls : List (Nat × Event A)} (h : Explains point hist calls) (tid : Nat) :
    Accounts point (eventsOf hist tid) (eventsOf calls tid) := by
  induction h with
  | nil => exact .nil
  | @snoc hist calls tid' e es _ hpoint ih =>
      rw [eventsOf_append calls]
      by_cases heq : tid' = tid
      · subst heq
        rw [eventsOf_append_self, eventsOf_tagged]
        exact ih.snoc hpoint
      · rw [eventsOf_append_ne _ _ heq, eventsOf_tagged_ne _ heq, List.append_nil]
        exact ih

/-- The last event of a task and what it contributed. -/
theorem Accounts.snoc_inv {point : Point S A} {h : List (Event S)} {e : Event S}
    {calls : List (Event A)} (ha : Accounts point (h ++ [e]) calls) :
    ∃ es es', calls = es ++ es' ∧ Accounts point h es ∧ point h e es' := by
  generalize hl : h ++ [e] = l at ha
  cases ha with
  | nil => simp at hl
  | snoc ha hpoint =>
      obtain ⟨rfl, hlast⟩ := List.append_inj' hl rfl
      cases List.head_eq_of_cons_eq hlast
      exact ⟨_, _, rfl, ha, hpoint⟩

/-- A call of an account was contributed by one of the events. -/
theorem Accounts.mem {point : Point S A} {h : List (Event S)} {calls : List (Event A)}
    (ha : Accounts point h calls) {a : Event A} (hmem : a ∈ calls) :
    ∃ h₁ e h₂ es, h = h₁ ++ e :: h₂ ∧ point h₁ e es ∧ a ∈ es := by
  induction ha with
  | nil => cases hmem
  | @snoc h es e es' _ hpoint ih =>
      cases List.mem_append.mp hmem with
      | inl hold =>
          obtain ⟨h₁, e₁, h₂, es₁, rfl, hp, ha⟩ := ih hold
          exact ⟨h₁, e₁, h₂ ++ [e], es₁, by simp, hp, ha⟩
      | inr hnew => exact ⟨h, e, [], es', rfl, hpoint, hnew⟩

/-- A trace without events accounts for no call. -/
theorem accounts_nil {point : Point S A} {calls : List (Event A)}
    (ha : Accounts point [] calls) : calls = [] := by
  generalize hl : ([] : List (Event S)) = l at ha
  cases ha with
  | nil => rfl
  | snoc => simp at hl

/-- Events that contribute nothing can be left out at the end. -/
theorem Accounts.drop_silent {point : Point S A} {h : List (Event S)} {calls : List (Event A)}
    (q : List (Event S)) (hq : ∀ e ∈ q, ∀ h' es, point h' e es → es = [])
    (ha : Accounts point (h ++ q) calls) : Accounts point h calls := by
  induction q using List.reverseRecOn generalizing calls with
  | nil => simpa using ha
  | append_singleton q e ih =>
      rw [← List.append_assoc] at ha
      obtain ⟨es, es', rfl, ha', hpoint⟩ := ha.snoc_inv
      have hnil : es' = [] := hq e (by simp) _ _ hpoint
      subst hnil
      rw [List.append_nil]
      exact ih (fun e' he' => hq e' (by simp [he'])) ha'

/-- A call of an explanation belongs to a task that has made a call. -/
theorem Explains.tag {point : Point S A} {hist : List (Nat × Event S)}
    {calls : List (Nat × Event A)} (h : Explains point hist calls) :
    ∀ a ∈ calls, ∃ e, (a.1, e) ∈ hist := by
  induction h with
  | nil =>
      intro a ha
      cases ha
  | @snoc hist calls tid e es _ _ ih =>
      intro a ha
      cases List.mem_append.mp ha with
      | inl hold =>
          obtain ⟨e', he'⟩ := ih a hold
          exact ⟨e', List.mem_append_left _ he'⟩
      | inr hnew =>
          obtain ⟨e', -, rfl⟩ := List.mem_map.mp hnew
          exact ⟨e, by simp⟩

/-- A sum over the tasks with `k` more at one of them. -/
theorem sum_range_add_at (f : Nat → Nat) (n tid k : Nat) :
    ((List.range n).map fun i => f i + if i = tid then k else 0).sum
      = ((List.range n).map f).sum + if tid < n then k else 0 := by
  induction n with
  | zero => rfl
  | succ n ih =>
      simp only [List.range_succ, List.map_append, List.sum_append, List.map_cons, List.map_nil,
        List.sum_cons, List.sum_nil]
      rw [ih]
      rcases Nat.lt_trichotomy tid n with hlt | heq | hgt
      · rw [if_pos hlt, if_neg (by omega), if_pos (by omega)]
        omega
      · rw [if_neg (by omega), if_pos heq.symm, if_pos (by omega)]
        omega
      · rw [if_neg (by omega), if_neg (by omega), if_neg (by omega)]
        omega

/-- A sum over a history is the sum of the sums of its tasks. -/
theorem sum_tasks {hist : List (Nat × Event S)} {n : Nat} (h : ∀ e ∈ hist, e.1 < n)
    (f : Event S → Nat) : (hist.map fun e => f e.2).sum
      = ((List.range n).map fun tid => ((eventsOf hist tid).map f).sum).sum := by
  induction hist using List.reverseRecOn with
  | nil =>
      show 0 = ((List.range n).map fun _ => 0).sum
      induction n with
      | zero => rfl
      | succ n ih => rw [List.range_succ, List.map_append, List.sum_append, ← ih nofun]; rfl
  | append_singleton hist e ih =>
      obtain ⟨tid, e⟩ := e
      have hlt : tid < n := h (tid, e) (by simp)
      have hone : ∀ i, ((eventsOf (hist ++ [(tid, e)]) i).map f).sum
          = ((eventsOf hist i).map f).sum + if i = tid then f e else 0 := by
        intro i
        by_cases heq : tid = i
        · subst heq
          rw [eventsOf_append_self, if_pos rfl]
          simp
        · rw [eventsOf_append_ne _ _ heq, if_neg (Ne.symm heq), Nat.add_zero]
      simp only [hone]
      rw [sum_range_add_at, if_pos hlt, List.map_append, List.sum_append,
        ih fun e' he' => h e' (by simp [he'])]
      simp

namespace Pool

variable {M : Machine S} {Req ε α : Type} {code : Req → Prog S ε α}
  {P : Pool M Req ε α → Label M Req → Prop} {c : Pool M Req ε α}

/-- Every run has a legal explanation that ends in the state the pool shows, when each step moves
the object as the calls it contributes do. `I` is what the runs keep. -/
theorem Reach.explained {O : Object A} {point : Point S A}
    {φ : Req → List (Event S) → S.Op → Prop} {ψ : Req → List (Event S) → Except ε α → Prop}
    {s₀ : M.State} (h : Reach code P (init s₀) c) (view : M.State → O.State)
    (I : M.State → List (Nat × Event S) → Prop)
    (hcode : ∀ req, (code req).Spec (φ req) (ψ req) [])
    (hI : ∀ c, Reach code P (init s₀) c → I c.shared c.history)
    (hcall : ∀ s hist tid req o ch r s', I s hist → φ req (eventsOf hist tid) o →
      M.exec tid s o ch = some (r, s') →
      ∃ es, point (eventsOf hist tid) ⟨o, r⟩ es ∧ O.Legal (view s) es (view s'))
    (hrelease : ∀ tid s, view (M.release tid s) = view s)
    (henv : ∀ s e s', M.env s e = some s' → view s' = view s) :
    ∃ calls, Explains point c.history calls
      ∧ O.Legal (view s₀) (calls.map Prod.snd) (view c.shared) := by
  refine h.invariant (I := fun c => ∃ calls, Explains point c.history calls
    ∧ O.Legal (view s₀) (calls.map Prod.snd) (view c.shared)) ⟨[], .nil, .nil⟩ ?_
  intro c l c' hr _ hn ⟨calls, hex, hlegal⟩
  cases hn with
  | spawn req => exact ⟨calls, hex, hlegal⟩
  | step tid ch req o k r s htask hexec =>
      have hφ : φ req (eventsOf c.history tid) o := hr.call_spec hcode htask
      obtain ⟨es, hpoint, hmove⟩ := hcall c.shared c.history tid req o ch r s (hI c hr) hφ hexec
      refine ⟨calls ++ tagged tid es, hex.snoc hpoint, ?_⟩
      rw [List.map_append, tagged_snd]
      exact hlegal.trans hmove
  | cancel tid req o k htask =>
      refine ⟨calls, hex, ?_⟩
      show O.Legal _ _ (view (M.release tid c.shared))
      rw [hrelease]
      exact hlegal
  | env e s he =>
      refine ⟨calls, hex, ?_⟩
      show O.Legal _ _ (view s)
      rw [henv _ _ _ he]
      exact hlegal

end Pool

end Tim.Lib

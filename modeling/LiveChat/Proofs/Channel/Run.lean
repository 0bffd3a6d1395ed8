import LiveChat.Entropy
import LiveChat.Fault

/-!
# Runs of operations

Links and switchboards are driven alike: operation after operation, with random words drawn along
the way. The log of a run has a turn for each operation. What each turn preserves holds of every
log.
-/

namespace LiveChat

theorem bind_eq_ok {ε α β : Type} {x : Except ε α} {f : α → Except ε β} {b : β} :
    x >>= f = .ok b ↔ ∃ a, x = .ok a ∧ f a = .ok b := by
  cases x with
  | error e => exact ⟨nofun, nofun⟩
  | ok a => exact ⟨fun h => ⟨a, rfl, h⟩, fun ⟨_, rfl, h⟩ => h⟩

namespace Channel

structure Turn (σ ι ω : Type) where
  before : σ
  op : ι
  answer : ω
  after : σ

variable {σ ι ω : Type}

def run (perform : σ → Entropy → ι → Except Fault (σ × Entropy × ω)) (s : σ) (e : Entropy) :
    List ι → Except Fault (List (Turn σ ι ω) × σ × Entropy)
  | [] => .ok ([], s, e)
  | op :: rest => do
    let (s', e', answer) ← perform s e op
    let (log, last, e'') ← run perform s' e' rest
    .ok (⟨s, op, answer, s'⟩ :: log, last, e'')

variable {perform : σ → Entropy → ι → Except Fault (σ × Entropy × ω)} {s s' s'' : σ}
  {e e' e'' : Entropy} {op : ι} {ops more : List ι} {answer : ω}
  {log later : List (Turn σ ι ω)}

theorem run_cons_of_error {f : Fault} (h : perform s e op = .error f) :
    run perform s e (op :: ops) = .error f := by
  rw [run, h]
  rfl

theorem run_cons_of_ok (h : perform s e op = .ok (s', e', answer)) :
    run perform s e (op :: ops) = (run perform s' e' ops).map fun (log, last, e'') =>
      (⟨s, op, answer, s'⟩ :: log, last, e'') := by
  rw [run, h]
  show (run perform s' e' ops >>= _) = _
  cases run perform s' e' ops <;> rfl

theorem run_cons_eq_ok_iff : run perform s e (op :: ops) = .ok (log, s'', e'') ↔
    ∃ s' e' answer rest, perform s e op = .ok (s', e', answer) ∧
      run perform s' e' ops = .ok (rest, s'', e'') ∧ log = ⟨s, op, answer, s'⟩ :: rest := by
  rw [run, bind_eq_ok]
  constructor
  · rintro ⟨⟨s', e', answer⟩, hperform, ok⟩
    obtain ⟨⟨rest, last, e₁⟩, hrest, ok⟩ := bind_eq_ok.1 ok
    cases ok
    exact ⟨s', e', answer, rest, hperform, hrest, rfl⟩
  · rintro ⟨s', e', answer, rest, hperform, hrest, rfl⟩
    exact ⟨_, hperform, bind_eq_ok.2 ⟨_, hrest, rfl⟩⟩

theorem ops_eq (ok : run perform s e ops = .ok (log, s', e')) : ops = log.map Turn.op := by
  induction ops generalizing s e log with
  | nil =>
      cases ok
      rfl
  | cons op ops ih =>
      obtain ⟨next, e₁, answer, rest, hperform, hrest, rfl⟩ := run_cons_eq_ok_iff.1 ok
      rw [List.map_cons, ← ih hrest]

theorem run_append (first : run perform s e ops = .ok (log, s', e'))
    (second : run perform s' e' more = .ok (later, s'', e'')) :
    run perform s e (ops ++ more) = .ok (log ++ later, s'', e'') := by
  induction ops generalizing s e log with
  | nil =>
      cases first
      exact second
  | cons op ops ih =>
      obtain ⟨next, e₁, answer, rest, hperform, hrest, rfl⟩ := run_cons_eq_ok_iff.1 first
      exact run_cons_eq_ok_iff.2 ⟨next, e₁, answer, rest ++ later, hperform, ih hrest, rfl⟩

theorem run_error {P : Fault → Prop} (turn : ∀ s e op f, perform s e op = .error f → P f)
    {f : Fault} (h : run perform s e ops = .error f) : P f := by
  induction ops generalizing s e with
  | nil => cases h
  | cons op ops ih =>
      cases hperform : perform s e op with
      | error g =>
          rw [run_cons_of_error hperform] at h
          cases h
          exact turn _ _ _ _ hperform
      | ok next =>
          obtain ⟨s', e', answer⟩ := next
          rw [run_cons_of_ok hperform] at h
          cases hrest : run perform s' e' ops with
          | error g =>
              rw [hrest] at h
              cases h
              exact ih hrest
          | ok result =>
              rw [hrest] at h
              cases h

/-- What holds at the start and is preserved by each turn holds at the end. -/
theorem run_preserves {I : List (Turn σ ι ω) → σ → Prop}
    (turn : ∀ log s e op s' e' answer, I log s → perform s e op = .ok (s', e', answer) →
      I (log ++ [⟨s, op, answer, s'⟩]) s')
    (earlier : List (Turn σ ι ω)) (start : I earlier s)
    (ok : run perform s e ops = .ok (log, s', e')) : I (earlier ++ log) s' := by
  induction ops generalizing s e log earlier with
  | nil =>
      cases ok
      rw [List.append_nil]
      exact start
  | cons op ops ih =>
      obtain ⟨next, e₁, answer, rest, hperform, hrest, rfl⟩ := run_cons_eq_ok_iff.1 ok
      have hnext := ih _ (turn _ _ _ _ _ _ _ start hperform) hrest
      rw [List.append_assoc] at hnext
      exact hnext

/-- What each turn of a kind preserves holds at the end of a run of such turns. -/
theorem run_preserves_while {I : List (Turn σ ι ω) → σ → Prop} {G : Turn σ ι ω → Prop}
    (turn : ∀ log s e op s' e' answer, I log s → G ⟨s, op, answer, s'⟩ →
      perform s e op = .ok (s', e', answer) → I (log ++ [⟨s, op, answer, s'⟩]) s')
    (start : I [] s) (ok : run perform s e ops = .ok (log, s', e')) (kind : ∀ t ∈ log, G t) :
    I log s' := by
  have kept : (∀ t ∈ [] ++ log, G t) → I ([] ++ log) s' := by
    apply run_preserves (I := fun log s => (∀ t ∈ log, G t) → I log s) _ [] (fun _ => start) ok
    intro log s e op s' e' answer before performed kinds
    obtain ⟨hlog, hturn⟩ := List.forall_mem_append.1 kinds
    exact turn log s e op s' e' answer (before hlog) (hturn _ List.mem_cons_self) performed
  exact kept kind

/-- Where no operation fails or draws a random word, no run does. -/
theorem run_steady {I : σ → Prop}
    (turn : ∀ s op, I s → ∃ s' answer, (∀ e, perform s e op = .ok (s', e, answer)) ∧ I s')
    (start : I s) (ops : List ι) : ∃ log s', ∀ e, run perform s e ops = .ok (log, s', e) := by
  induction ops generalizing s with
  | nil => exact ⟨[], s, fun _ => rfl⟩
  | cons op ops ih =>
      obtain ⟨next, answer, hperform, hnext⟩ := turn s op start
      obtain ⟨rest, last, hrest⟩ := ih hnext
      exact ⟨_, last, fun e => run_cons_eq_ok_iff.2 ⟨_, _, _, _, hperform e, hrest e, rfl⟩⟩

/-- A run whose log is in two parts is two runs. -/
theorem run_unappend (ok : run perform s e ops = .ok (log, s', e'))
    {past future : List (Turn σ ι ω)} (split : log = past ++ future) :
    ∃ s₁ e₁, run perform s e (past.map Turn.op) = .ok (past, s₁, e₁) ∧
      run perform s₁ e₁ (future.map Turn.op) = .ok (future, s', e') := by
  induction past generalizing s e ops log with
  | nil =>
      obtain rfl : log = future := split
      exact ⟨s, e, rfl, ops_eq ok ▸ ok⟩
  | cons first past ih =>
      cases ops with
      | nil =>
          cases ok
          cases split
      | cons op ops =>
          obtain ⟨next, e₁, answer, rest, hperform, hrest, rfl⟩ := run_cons_eq_ok_iff.1 ok
          obtain ⟨rfl, hsplit⟩ := List.cons.inj split
          obtain ⟨s₁, e₂, hpast, hfuture⟩ := ih hrest hsplit
          refine ⟨s₁, e₂, ?_, hfuture⟩
          rw [List.map_cons, run_cons_eq_ok_iff]
          exact ⟨next, e₁, answer, past, hperform, hpast, rfl⟩

/-- A run up to one of its turns is a run, the turn is what its operation did there, and what comes
after it is a run. -/
theorem run_at (ok : run perform s e ops = .ok (log, s', e')) {past future : List (Turn σ ι ω)}
    {t : Turn σ ι ω} (split : log = past ++ t :: future) :
    ∃ e₁ e₂, run perform s e (past.map Turn.op) = .ok (past, t.before, e₁) ∧
      perform t.before e₁ t.op = .ok (t.after, e₂, t.answer) ∧
      run perform t.after e₂ (future.map Turn.op) = .ok (future, s', e') := by
  obtain ⟨s₁, e₁, hpast, hrest⟩ := run_unappend ok split
  rw [List.map_cons] at hrest
  obtain ⟨next, e₂, answer, rest, hperform, hfuture, heq⟩ := run_cons_eq_ok_iff.1 hrest
  obtain ⟨hturn, rfl⟩ := List.cons.inj heq
  have hbefore : t.before = s₁ := congrArg Turn.before hturn
  have hanswer : t.answer = answer := congrArg Turn.answer hturn
  have hafter : t.after = next := congrArg Turn.after hturn
  rw [hbefore, hanswer, hafter]
  exact ⟨e₁, e₂, hpast, hperform, hfuture⟩

theorem run_split (ok : run perform s e ops = .ok (log, s', e')) {past future : List (Turn σ ι ω)}
    {t : Turn σ ι ω} (split : log = past ++ t :: future) :
    ∃ e₁ e₂, run perform s e (past.map Turn.op) = .ok (past, t.before, e₁) ∧
      perform t.before e₁ t.op = .ok (t.after, e₂, t.answer) := by
  obtain ⟨e₁, e₂, hpast, hturn, -⟩ := run_at ok split
  exact ⟨e₁, e₂, hpast, hturn⟩

end Channel

end LiveChat

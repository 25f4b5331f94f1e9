import Mathlib.Data.List.Infix

/-! Programs over a durable store. A program reads the store, commits one write at a time, and
    either returns or raises. A crash keeps some prefix of its writes, so a property of every
    write, checked in the store the write is made in, is a property of every crash state. -/

/-- A store that changes by one committed write at a time. -/
class Durable (σ : Type) (ω : outParam Type) where
  commit : σ → ω → σ

namespace Durable

variable {σ ω ε α β : Type}

/-- The writes a program makes from a store, in order, and how it ends. -/
def Prog (σ ω ε α : Type) : Type := σ → List ω × Except ε α

section
variable [Durable σ ω]

/-- The store after a sequence of writes. -/
def commits (s : σ) (ws : List ω) : σ := ws.foldl commit s

@[simp] theorem commits_nil (s : σ) : commits s ([] : List ω) = s := rfl
@[simp] theorem commits_cons (s : σ) (w : ω) (ws : List ω) : commits s (w :: ws) = commits (commit s w) ws := rfl
theorem commits_append (s : σ) (a b : List ω) : commits s (a ++ b) = commits (commits s a) b :=
  List.foldl_append

namespace Prog

/-- Reads the whole store. -/
def read : Prog σ ω ε σ := fun s => ([], .ok s)

/-- Commits one write. -/
def write (w : ω) : Prog σ ω ε Unit := fun _ => ([w], .ok ())

/-- Raises, or returns, what a pure computation does. -/
def lift (r : Except ε α) : Prog σ ω ε α := fun _ => ([], r)

/-- Returns what the program raised instead of raising it; its writes stay. -/
def attempt (p : Prog σ ω ε α) : Prog σ ω ε (Except ε α) := fun s => ((p s).1, .ok (p s).2)

instance : Monad (Prog σ ω ε) where
  pure a := fun _ => ([], .ok a)
  bind p f := fun s =>
    match p s with
    | (ws, .error e) => (ws, .error e)
    | (ws, .ok a) => (ws ++ (f a (commits s ws)).1, (f a (commits s ws)).2)

instance : MonadExcept ε (Prog σ ω ε) where
  throw e := fun _ => ([], .error e)
  tryCatch p handle := fun s =>
    match p s with
    | (ws, .ok a) => (ws, .ok a)
    | (ws, .error e) => (ws ++ (handle e (commits s ws)).1, (handle e (commits s ws)).2)

/-- Runs the program where the condition holds. -/
def when (c : Prop) [Decidable c] (p : Prog σ ω ε Unit) : Prog σ ω ε Unit := if c then p else pure ()

/-- Runs the program on each item in turn. -/
def forEach (items : List α) (body : α → Prog σ ω ε Unit) : Prog σ ω ε Unit :=
  match items with
  | [] => pure ()
  | a :: rest => do
    body a
    forEach rest body

/-- The store a completed run leaves. -/
def final (p : Prog σ ω ε α) (s : σ) : σ := commits s (p s).1

/-- A store a crash of the program can leave: some prefix of its writes was committed. -/
def Crash (p : Prog σ ω ε α) (s s' : σ) : Prop := ∃ ws, ws <+: (p s).1 ∧ commits s ws = s'

theorem Crash.final (p : Prog σ ω ε α) (s : σ) : Crash p s (p.final s) := ⟨_, List.prefix_rfl, rfl⟩

theorem Crash.start (p : Prog σ ω ε α) (s : σ) : Crash p s s := ⟨[], List.nil_prefix, rfl⟩

section
variable {p : Prog σ ω ε α} {s s' : σ}

/-- A crash of a sequence is a crash of its first part, or of its second one where the first ends. -/
theorem Crash.bind {f : α → Prog σ ω ε β} (h : Crash (p >>= f) s s') :
    Crash p s s' ∨ ∃ a, (p s).2 = .ok a ∧ Crash (f a) (p.final s) s' := by
  obtain ⟨ws, pre, rfl⟩ := h
  simp only [Bind.bind] at pre
  rcases run : p s with ⟨done, e | a⟩ <;> simp only [run] at pre
  · exact .inl ⟨ws, by simpa [run] using pre, rfl⟩
  · rcases List.prefix_or_prefix_of_prefix pre (List.prefix_append done _) with early | ⟨rest, rfl⟩
    · exact .inl ⟨ws, by simpa [run] using early, rfl⟩
    · refine .inr ⟨a, rfl, rest, ?_, ?_⟩
      · simpa [Prog.final, run] using (List.prefix_append_right_inj done).mp pre
      · simp [Prog.final, run, commits_append]

/-- Where the first part writes nothing, the sequence does what the second part does. -/
theorem Crash.skip {f : α → Prog σ ω ε β} (h : Crash (p >>= f) s s') (silent : (p s).1 = []) :
    s' = s ∨ ∃ a, (p s).2 = .ok a ∧ Crash (f a) s s' := by
  rcases h.bind with early | ⟨a, ends, late⟩
  · obtain ⟨ws, pre, rfl⟩ := early
    rw [silent] at pre
    rw [List.prefix_nil.mp pre]
    exact .inl rfl
  · rw [Prog.final, silent] at late
    exact .inr ⟨a, ends, late⟩

theorem Crash.write {w : ω} (h : Crash (Prog.write w : Prog σ ω ε Unit) s s') : s' = s ∨ s' = commit s w := by
  obtain ⟨ws, pre, rfl⟩ := h
  rcases List.prefix_cons_iff.mp pre with rfl | ⟨rest, rfl, none⟩
  · exact .inl rfl
  · rw [List.prefix_nil.mp none]
    exact .inr rfl

end

end Prog

/-! ### Paths of permitted writes -/

/-- Each write of the sequence is permitted in the store it is made in. -/
def Path (P : σ → ω → Prop) : σ → List ω → Prop
  | _, [] => True
  | s, w :: ws => P s w ∧ Path P (commit s w) ws

@[simp] theorem path_nil (P : σ → ω → Prop) (s : σ) : Path P s [] := trivial
@[simp] theorem path_cons (P : σ → ω → Prop) (s : σ) (w : ω) (ws : List ω) :
    Path P s (w :: ws) ↔ P s w ∧ Path P (commit s w) ws := Iff.rfl

theorem path_append {P : σ → ω → Prop} {s : σ} {a b : List ω} :
    Path P s (a ++ b) ↔ Path P s a ∧ Path P (commits s a) b := by
  induction a generalizing s with
  | nil => simp
  | cons w ws ih => simp [ih, and_assoc]

theorem Path.mono {P P' : σ → ω → Prop} (le : ∀ s w, P s w → P' s w) {s : σ} {ws : List ω}
    (h : Path P s ws) : Path P' s ws := by
  induction ws generalizing s with
  | nil => trivial
  | cons w ws ih => exact ⟨le s w h.1, ih h.2⟩

theorem Path.of_initial {P : σ → ω → Prop} {s : σ} {a b : List ω} (h : Path P s b) (pre : a <+: b) : Path P s a := by
  obtain ⟨rest, rfl⟩ := pre
  exact (path_append.mp h).1

theorem Path.and {P P' : σ → ω → Prop} {s : σ} {ws : List ω} (h : Path P s ws) (h' : Path P' s ws) :
    Path (fun s w => P s w ∧ P' s w) s ws := by
  induction ws generalizing s with
  | nil => trivial
  | cons w ws ih => exact ⟨⟨h.1, h'.1⟩, ih h.2 h'.2⟩

theorem path_of_only {C : ω → Prop} {s : σ} {ws : List ω} (h : ∀ w ∈ ws, C w) : Path (fun _ w => C w) s ws := by
  induction ws generalizing s with
  | nil => trivial
  | cons w ws ih => exact ⟨h w (by simp), ih fun w' hw' => h w' (by simp [hw'])⟩

/-- What every permitted write keeps, a path of them keeps. -/
theorem Path.keeps {P : σ → ω → Prop} {I : σ → Prop} (step : ∀ s w, I s → P s w → I (commit s w))
    {s : σ} {ws : List ω} (h : Path P s ws) (start : I s) : I (commits s ws) := by
  induction ws generalizing s with
  | nil => exact start
  | cons w ws ih => exact ih h.2 (step s w start h.1)

/-! ### Weakest preconditions -/

/-- From `s`, every write of the program is permitted by `P` in the store it is made in, and the
    program ends in a result and a store that satisfy `Q`. -/
def wp (P : σ → ω → Prop) (p : Prog σ ω ε α) (Q : Except ε α → σ → Prop) (s : σ) : Prop :=
  Path P s (p s).1 ∧ Q (p s).2 (p.final s)

variable {P P' : σ → ω → Prop} {Q Q' : Except ε α → σ → Prop} {s : σ}

theorem wp.mono {p : Prog σ ω ε α} (h : wp P p Q s) (le : ∀ s w, P s w → P' s w)
    (post : ∀ r s, Q r s → Q' r s) : wp P' p Q' s :=
  ⟨h.1.mono le, post _ _ h.2⟩

theorem wp.post {p : Prog σ ω ε α} (h : wp P p Q s) (post : ∀ r s, Q r s → Q' r s) : wp P p Q' s :=
  ⟨h.1, post _ _ h.2⟩

/-- Permissions of one program combine. -/
theorem wp.permits {p : Prog σ ω ε α} (h : wp P p Q s) (h' : wp P' p (fun _ _ => True) s) : wp (fun s w => P s w ∧ P' s w) p Q s :=
  ⟨h.1.and h'.1, h.2⟩

theorem wp.and {p : Prog σ ω ε α} (h : wp P p Q s) (h' : wp P' p Q' s) :
    wp P p (fun r s => Q r s ∧ Q' r s) s := ⟨h.1, h.2, h'.2⟩

@[simp] theorem wp_pure (a : α) : wp P (pure a : Prog σ ω ε α) Q s ↔ Q (.ok a) s :=
  ⟨fun h => h.2, fun h => ⟨trivial, h⟩⟩

@[simp] theorem wp_throw (e : ε) : wp P (throw e : Prog σ ω ε α) Q s ↔ Q (.error e) s :=
  ⟨fun h => h.2, fun h => ⟨trivial, h⟩⟩

@[simp] theorem wp_lift (r : Except ε α) : wp P (Prog.lift r) Q s ↔ Q r s :=
  ⟨fun h => h.2, fun h => ⟨trivial, h⟩⟩

@[simp] theorem wp_read {Q : Except ε σ → σ → Prop} : wp P Prog.read Q s ↔ Q (.ok s) s :=
  ⟨fun h => h.2, fun h => ⟨trivial, h⟩⟩

@[simp] theorem wp_write (w : ω) {Q : Except ε Unit → σ → Prop} :
    wp P (Prog.write w) Q s ↔ P s w ∧ Q (.ok ()) (commit s w) :=
  ⟨fun h => ⟨h.1.1, h.2⟩, fun h => ⟨⟨h.1, trivial⟩, h.2⟩⟩

@[simp] theorem wp_attempt (p : Prog σ ω ε α) {Q : Except ε (Except ε α) → σ → Prop} :
    wp P p.attempt Q s ↔ wp P p (fun r => Q (.ok r)) s := Iff.rfl

/-- The rule of sequencing: the second program starts where the first one returned. -/
@[simp] theorem wp_bind (p : Prog σ ω ε α) (f : α → Prog σ ω ε β) {Q : Except ε β → σ → Prop} :
    wp P (p >>= f) Q s ↔
      wp P p (fun r s' => match r with | .ok a => wp P (f a) Q s' | .error e => Q (.error e) s') s := by
  simp only [wp, bind, Prog.final]
  rcases p s with ⟨ws, _ | a⟩
  · rfl
  · simp only [path_append, commits_append]
    exact and_assoc

theorem wp_ite (c : Prop) [Decidable c] (p q : Prog σ ω ε α) :
    wp P (if c then p else q) Q s ↔ (c → wp P p Q s) ∧ (¬c → wp P q Q s) := by
  split <;> simp_all

@[simp] theorem wp_when (c : Prop) [Decidable c] (p : Prog σ ω ε Unit) {Q : Except ε Unit → σ → Prop} :
    wp P (Prog.when c p) Q s ↔ (c → wp P p Q s) ∧ (¬c → Q (.ok ()) s) := by
  rw [Prog.when, wp_ite, wp_pure]

/-- The rule of loops: each pass starts in a store that satisfies `I` and, unless it raises, leaves
    one that does. -/
theorem wp_forEach {I : σ → Prop} {E : ε → σ → Prop} {body : α → Prog σ ω ε Unit} {items : List α}
    (pass : ∀ a ∈ items, ∀ s, I s →
      wp P (body a) (fun r s' => match r with | .ok _ => I s' | .error e => E e s') s)
    (start : I s) :
    wp P (Prog.forEach items body) (fun r s' => match r with | .ok _ => I s' | .error e => E e s') s := by
  induction items generalizing s with
  | nil => simpa [Prog.forEach] using start
  | cons a rest ih =>
    simp only [Prog.forEach, wp_bind]
    refine (pass a (by simp) s start).post ?_
    rintro (e | _) s' h
    · exact h
    · exact ih (fun b hb => pass b (by simp [hb])) h

/-- What every end satisfies, with every write permitted. -/
theorem wp_of_forall {p : Prog σ ω ε α} (h : ∀ r s', Q r s') : wp (fun _ _ => True) p Q s :=
  ⟨(path_of_only (C := fun _ => True) fun _ _ => trivial).mono fun _ _ _ => trivial, h _ _⟩

/-- A loop that writes once for each item makes those writes in order. -/
theorem wp_forEach_write (f : α → ω) {items : List α} {Q : Except ε Unit → σ → Prop} :
    wp P (Prog.forEach items fun a => Prog.write (f a)) Q s ↔
      Path P s (items.map f) ∧ Q (.ok ()) (commits s (items.map f)) := by
  induction items generalizing s with
  | nil => simp [Prog.forEach]
  | cons a rest ih => simp [Prog.forEach, ih, and_assoc]

/-! ### Programs that make only some kind of write -/

/-- From every store, each write of the program satisfies `C`. -/
def Only (C : ω → Prop) (p : Prog σ ω ε α) : Prop := ∀ s, ∀ w ∈ (p s).1, C w

namespace Only
variable {C C' : ω → Prop}

theorem mono {p : Prog σ ω ε α} (h : Only C p) (le : ∀ w, C w → C' w) : Only C' p :=
  fun s w hw => le w (h s w hw)

theorem pure (a : α) : Only C (Pure.pure a : Prog σ ω ε α) := fun _ _ hw => (List.not_mem_nil hw).elim
theorem throw (e : ε) : Only C (MonadExcept.throw e : Prog σ ω ε α) := fun _ _ hw => (List.not_mem_nil hw).elim
theorem lift (r : Except ε α) : Only C (Prog.lift r : Prog σ ω ε α) := fun _ _ hw => (List.not_mem_nil hw).elim
theorem read : Only C (Prog.read : Prog σ ω ε σ) := fun _ _ hw => (List.not_mem_nil hw).elim
theorem write {w : ω} (h : C w) : Only C (Prog.write w : Prog σ ω ε Unit) :=
  fun _ _ hw => List.mem_singleton.mp hw ▸ h

theorem bind {p : Prog σ ω ε α} {f : α → Prog σ ω ε β} (hp : Only C p) (hf : ∀ a, Only C (f a)) :
    Only C (p >>= f) := by
  intro s w hw
  simp only [Bind.bind] at hw
  rcases run : p s with ⟨ws, e | a⟩ <;> simp only [run] at hw
  · exact hp s w (by simpa [run] using hw)
  · rcases List.mem_append.mp hw with hw | hw
    · exact hp s w (by simpa [run] using hw)
    · exact hf a _ w hw

/-- What the first program returns may bear on the second. -/
theorem bind_of {p : Prog σ ω ε α} {f : α → Prog σ ω ε β} (hp : Only C p) (hf : ∀ s a, (p s).2 = .ok a → Only C (f a)) :
    Only C (p >>= f) := by
  intro s w hw
  simp only [Bind.bind] at hw
  rcases run : p s with ⟨ws, e | a⟩ <;> simp only [run] at hw
  · exact hp s w (by simpa [run] using hw)
  · rcases List.mem_append.mp hw with hw | hw
    · exact hp s w (by simpa [run] using hw)
    · exact hf s a (by simp [run]) _ w hw

theorem ite {c : Prop} [Decidable c] {p q : Prog σ ω ε α} (hp : Only C p) (hq : Only C q) :
    Only C (if c then p else q) := by
  split <;> assumption

theorem when {c : Prop} [Decidable c] {p : Prog σ ω ε Unit} (h : Only C p) : Only C (Prog.when c p) :=
  ite h (pure ())

theorem attempt {p : Prog σ ω ε α} (h : Only C p) : Only C p.attempt := h

theorem forEach {items : List α} {body : α → Prog σ ω ε Unit} (h : ∀ a ∈ items, Only C (body a)) :
    Only C (Prog.forEach items body) := by
  induction items with
  | nil => exact pure ()
  | cons a rest ih => exact bind (h a (by simp)) fun _ => ih fun b hb => h b (by simp [hb])

theorem crash {p : Prog σ ω ε α} (h : Only C p) {s s' : σ} (cut : Prog.Crash p s s') :
    ∃ ws, (∀ w ∈ ws, C w) ∧ s' = commits s ws := by
  obtain ⟨ws, pre, rfl⟩ := cut
  exact ⟨ws, fun w mem => h s w (pre.subset mem), rfl⟩

/-- Where every write of the kind is permitted, the program is. -/
theorem wp {p : Prog σ ω ε α} (h : Only C p) (le : ∀ s w, C w → P s w) :
    Durable.wp P p (fun _ s' => ∃ ws, s' = commits s ws ∧ ∀ w ∈ ws, C w) s :=
  ⟨(path_of_only (h s)).mono fun s w hw => le s w hw, _, rfl, h s⟩

end Only

/-- What the permitted writes keep still holds at the end. -/
theorem wp.keeps {p : Prog σ ω ε α} (h : wp P p Q s) {I : σ → Prop} (step : ∀ s w, I s → P s w → I (commit s w))
    (start : I s) : wp P p (fun r s' => Q r s' ∧ I s') s := ⟨h.1, h.2, h.1.keeps step start⟩

/-- Every store a crash leaves satisfies what the permitted writes keep. -/
theorem wp.crash {p : Prog σ ω ε α} (h : wp P p Q s) {I : σ → Prop}
    (step : ∀ s w, I s → P s w → I (commit s w)) (start : I s) {s' : σ} (cut : Prog.Crash p s s') : I s' := by
  obtain ⟨ws, pre, rfl⟩ := cut
  exact (h.1.of_initial pre).keeps step start

end

end Durable

import MootLoop.RunLocks

/-! Exclusion and fencing of the run lock over every interleaving of its methods. What an object has learned of the lock
    file stays true while it has the `flock`: so a lock is taken over as it was judged, and a heartbeat or a release
    meets only its own. -/

namespace MootLoop

namespace RunLocks
open Transition

variable {hosts : ProcessId → Host} {configs : LockId → Config}

/-! ### Owners -/

/-- The lock file has a token that the object drew. -/
def Owns (s : State) (id : LockId) : Prop :=
  ∃ existing token, s.file = some (.record existing) ∧ existing.token = some token ∧ (id, token) ∈ s.drawn

/-- No such process is alive. -/
def Dead (hosts : ProcessId → Host) (s : State) (host : Host) : Prop :=
  ∀ process, s.life process = .alive → hosts process ≠ host

/-- A lock file that may be taken over: readable, of this host, and of a dead process or with an old heartbeat. -/
structure MayTake (hosts : ProcessId → Host) (config : Config) (s : State) (now : Instant) (existing : LockRecord) : Prop where
  readable : s.file = some (.record existing)
  same_host : existing.hostname = some (hosts config.process).hostname
  lapsed : Dead hosts s ⟨(hosts config.process).hostname, existing.pid⟩ ∨
    ∃ last, existing.heartbeat_at = some last ∧ config.heartbeat_threshold < now.micros - last.micros

/-- The lock file is as it was when the object found that it may take it over. -/
def Judged (hosts : ProcessId → Host) (configs : LockId → Config) (start : State) (trace : List Label) (s : State)
    (id : LockId) : Prop :=
  ∃ front alive now middle s₁ s₂ existing, trace = front ++ .judged id alive now :: middle ∧
    Run (Step hosts configs) start front s₁ ∧ Step hosts configs s₁ (.judged id alive now) s₂ ∧
    Run (Step hosts configs) s₂ middle s ∧ MayTake hosts (configs id) s₁ now existing ∧ s.file = s₁.file

/-! ### What a step of an object leaves alone -/

section
variable {s : State} {id : LockId} {pc : Pc} {call : Call} {done : Bool}

@[simp] theorem goto_file : (s.goto id pc).file = s.file := rfl
@[simp] theorem goto_flock : (s.goto id pc).flock = s.flock := rfl
@[simp] theorem goto_life : (s.goto id pc).life = s.life := rfl
@[simp] theorem goto_token : (s.goto id pc).token = s.token := rfl
@[simp] theorem goto_drawn : (s.goto id pc).drawn = s.drawn := rfl
@[simp] theorem goto_pc : (s.goto id pc).pc = Function.update s.pc id pc := rfl

theorem proceed_eq (s : State) (id : LockId) (pc : Pc) : s.proceed id pc = s.goto id pc ∨
    (∃ started, pc = .leaving (.acquire started) false) ∧
      s.proceed id pc = { s.goto id pc with token := Function.update s.token id none } := by
  unfold State.proceed
  split
  · exact .inr ⟨⟨_, rfl⟩, rfl⟩
  · exact .inl rfl

theorem raise_eq (s : State) (id : LockId) (call : Call) : ∃ pc, (pc = .idle ∨ pc = .leaving call false) ∧
    (s.raise id call = s.goto id pc ∨ s.raise id call = s.proceed id pc) ∧ (pc = .idle → (s.pc id).inside = false) := by
  unfold State.raise
  split
  · exact ⟨.idle, .inl rfl, .inl rfl, fun _ => by simp_all [Pc.inside]⟩
  · exact ⟨.leaving call false, .inr rfl, .inr rfl, nofun⟩
  · exact ⟨.leaving call false, .inr rfl, .inl rfl, nofun⟩

end

/-- What the others have does not change by an object's step. -/
structure Local (configs : LockId → Config) (s s' : State) (id : LockId) : Prop where
  alive : s.life (configs id).process = .alive
  life : s'.life = s.life
  pc : ∀ other, other ≠ id → s'.pc other = s.pc other
  token : ∀ other, other ≠ id → s'.token other = s.token other
  drawn : ∀ d ∈ s.drawn, d ∈ s'.drawn
  file : (s.pc id).inside = false → s'.file = s.file
  flock : ∀ other, other ≠ id → (s.pc id).inside = false → s.flock = some other → s'.flock = some other

section
variable {s s' : State} {id : LockId} {l : Label}

theorem Local.goto (alive : s.life (configs id).process = .alive) (pc : Pc) : Local configs s (s.goto id pc) id where
  alive := alive
  life := rfl
  pc _ ne := Function.update_of_ne ne ..
  token _ _ := rfl
  drawn _ mem := mem
  file _ := rfl
  flock _ _ _ held := held

theorem Local.proceed (alive : s.life (configs id).process = .alive) (pc : Pc) : Local configs s (s.proceed id pc) id := by
  rcases proceed_eq s id pc with goes | ⟨-, goes⟩
  · rw [goes]
    exact .goto alive pc
  · rw [goes]
    exact { Local.goto alive pc with token := fun other ne => Function.update_of_ne ne .. }

theorem Step.local (step : Step hosts configs s l s') (by_id : l.id = some id) : Local configs s s' id := by
  cases step with
  | started => cases by_id
  | died => cases by_id
  | acquire alive idle fresh =>
    cases by_id
    exact { Local.goto alive _ with
      token := fun other ne => Function.update_of_ne ne ..
      drawn := fun d mem => List.mem_append_left _ mem }
  | called alive => cases by_id; exact .goto alive _
  | entered alive pc free =>
    cases by_id
    exact { Local.goto alive _ with flock := fun other _ _ held => by rw [free] at held; cases held }
  | linked alive pc absent =>
    cases by_id
    exact { Local.goto alive _ with file := fun outside => by rw [pc] at outside; cases outside }
  | existed alive => cases by_id; exact .goto alive _
  | read alive => cases by_id; exact .proceed alive _
  | judged alive => cases by_id; exact .proceed alive _
  | replaced alive pc =>
    cases by_id
    exact { Local.goto alive _ with file := fun outside => by rw [pc] at outside; cases outside }
  | unlinked alive pc =>
    cases by_id
    exact { Local.goto alive _ with file := fun outside => by rw [pc] at outside; cases outside }
  | @raised id call alive pc =>
    cases by_id
    obtain ⟨pc', -, raises | raises, -⟩ := raise_eq s id call
    · rw [raises]
      exact .goto alive pc'
    · rw [raises]
      exact .proceed alive pc'
  | @left id call done alive pc =>
    cases by_id
    have returns : Local configs s ((s.goto id .idle).return id call done) id := by
      unfold State.return
      split
      · exact { Local.goto alive _ with }
      · exact { Local.goto alive _ with token := fun other ne => Function.update_of_ne ne .. }
      · exact .goto alive _
    exact { returns with flock := fun other _ outside => by rw [pc] at outside; cases outside }

end

/-! ### The invariant -/

/-- What an object knows at a point of its method. -/
def Learned (hosts : ProcessId → Host) (configs : LockId → Config) (start : State) (trace : List Label) (s : State)
    (id : LockId) : Pc → Prop
  | .entering (.acquire _) | .locked (.acquire _) | .existing _ => ∃ token, s.token id = some token
  | .judging _ existing => (∃ token, s.token id = some token) ∧ s.file = some (.record existing)
  | .writing (.acquire _) _ =>
    (∃ token, s.token id = some token) ∧ ((configs id).override = false → Judged hosts configs start trace s id)
  | .writing .heartbeat _ | .unlinking => ∃ existing, s.file = some (.record existing) ∧ existing.token = s.token id
  | .writing .release _ => False
  | .leaving (.acquire _) true => Owns s id
  | _ => True

/-- A lock file of an object's, with its heartbeat. -/
def Published (s : State) (existing : LockRecord) : Prop :=
  existing.heartbeat_at ≠ none ∧ ∃ id token, existing.token = some token ∧ (id, token) ∈ s.drawn

structure Sound (hosts : ProcessId → Host) (configs : LockId → Config) (start : State) (trace : List Label) (s : State) :
    Prop where
  unborn : ∀ id, s.life (configs id).process = .unborn → s.pc id = .idle
  exclusive : ∀ id, s.life (configs id).process = .alive → (s.pc id).inside = true → s.flock = some id
  published : ∀ existing, s.file = some (.record existing) → Published s existing
  drawn_once : ∀ a b token, (a, token) ∈ s.drawn → (b, token) ∈ s.drawn → a = b
  tokens : ∀ id token, s.token id = some token → (id, token) ∈ s.drawn
  learned : ∀ id, s.life (configs id).process = .alive → Learned hosts configs start trace s id (s.pc id)

section
variable {start s s' : State} {trace : List Label} {id : LockId} {l : Label}

theorem Initial.sound (initial : Initial start) : Sound hosts configs start [] start where
  unborn id _ := initial.pc id
  exclusive id _ inside := by
    rw [initial.pc id] at inside
    cases inside
  published existing found := by
    rcases initial.file with absent | unreadable
    · rw [absent] at found
      cases found
    · rw [unreadable] at found
      cases found
  drawn_once a b token mem := by
    rw [initial.drawn] at mem
    cases mem
  tokens id token held := by
    rw [initial.token id] at held
    cases held
  learned id _ := by
    rw [initial.pc id]
    trivial

/-- A token names its object. -/
theorem Sound.owner_unique (sound : Sound hosts configs start trace s) {a b : LockId} (ha : Owns s a) (hb : Owns s b) :
    a = b := by
  obtain ⟨existing, token, found, named, drawn⟩ := ha
  obtain ⟨existing', token', found', named', drawn'⟩ := hb
  rw [found] at found'
  cases found'
  rw [named] at named'
  cases named'
  exact sound.drawn_once a b token drawn drawn'

/-- What an object knows stays true while its own fields and the lock file do. -/
theorem Learned.frame {pc : Pc} (learned : Learned hosts configs start trace s id pc) (step : Step hosts configs s l s')
    (token : s'.token id = s.token id) (drawn : ∀ d ∈ s.drawn, d ∈ s'.drawn)
    (file : pc.inside = true → s'.file = s.file) : Learned hosts configs start (trace ++ [l]) s' id pc := by
  have judged : ∀ {call started}, pc = .writing call started → Judged hosts configs start trace s id →
      Judged hosts configs start (trace ++ [l]) s' id := by
    rintro call started rfl ⟨front, alive, now, middle, s₁, s₂, existing, rfl, before, found, after, may, same⟩
    exact ⟨front, alive, now, middle ++ [l], s₁, s₂, existing, by simp, before, found, after.snoc step, may,
      (file rfl).trans same⟩
  have drew : (∃ token, s.token id = some token) → ∃ token, s'.token id = some token := fun ⟨t, held⟩ => ⟨t, token.trans held⟩
  cases pc with
  | idle => trivial
  | entering call =>
    cases call with
    | acquire started => exact drew learned
    | heartbeat | release => trivial
  | locked call =>
    cases call with
    | acquire started => exact drew learned
    | heartbeat | release => trivial
  | existing started => exact drew learned
  | judging started existing => exact ⟨drew learned.1, (file rfl).trans learned.2⟩
  | writing call started_at =>
    cases call with
    | acquire started => exact ⟨drew learned.1, fun no_override => judged rfl (learned.2 no_override)⟩
    | heartbeat =>
      obtain ⟨existing, found, mine⟩ := learned
      exact ⟨existing, (file rfl).trans found, mine.trans token.symm⟩
    | release => exact learned
  | unlinking =>
    obtain ⟨existing, found, mine⟩ := learned
    exact ⟨existing, (file rfl).trans found, mine.trans token.symm⟩
  | leaving call done =>
    cases call with
    | acquire started =>
      cases done with
      | true =>
        obtain ⟨existing, mine, found, named, held⟩ := learned
        exact ⟨existing, mine, (file rfl).trans found, named, drawn _ held⟩
      | false => trivial
    | heartbeat | release => trivial

/-- The others keep what they know through an object's step. -/
theorem Sound.others (sound : Sound hosts configs start trace s) (step : Step hosts configs s l s') (here : Local configs s s' id)
    {other : LockId} (ne : other ≠ id) (alive : s'.life (configs other).process = .alive) :
    Learned hosts configs start (trace ++ [l]) s' other (s'.pc other) ∧
      ((s'.pc other).inside = true → s'.flock = some other) := by
  rw [here.life] at alive
  rw [here.pc other ne]
  have outside : (s.pc other).inside = true → (s.pc id).inside = false ∧ s.flock = some other := by
    intro inside
    have held := sound.exclusive other alive inside
    refine ⟨?_, held⟩
    by_contra also
    have held' := sound.exclusive id here.alive (by simpa using also)
    rw [held] at held'
    exact ne (Option.some_inj.mp held')
  refine ⟨(sound.learned other alive).frame step (here.token other ne) here.drawn fun inside => here.file (outside inside).1,
    fun inside => here.flock other ne (outside inside).1 (outside inside).2⟩

/-- An object's step keeps the invariant when it does for the object itself and for the file. -/
theorem Sound.step_of (sound : Sound hosts configs start trace s) (step : Step hosts configs s l s') (here : Local configs s s' id)
    (exclusive : (s'.pc id).inside = true → s'.flock = some id)
    (published : s'.file = s.file ∨ ∀ existing, s'.file = some (.record existing) → Published s' existing)
    (drawn : s'.drawn = s.drawn ∨ ∃ token, (∀ d ∈ s.drawn, d.2 ≠ token) ∧ s'.drawn = s.drawn ++ [(id, token)])
    (tokens : ∀ token, s'.token id = some token → (id, token) ∈ s'.drawn)
    (learned : Learned hosts configs start (trace ++ [l]) s' id (s'.pc id)) :
    Sound hosts configs start (trace ++ [l]) s' where
  unborn other unborn := by
    rw [here.life] at unborn
    by_cases same : other = id
    · rw [same, here.alive] at unborn
      cases unborn
    · rw [here.pc other same]
      exact sound.unborn other unborn
  exclusive other alive := by
    by_cases same : other = id
    · rw [same]
      exact exclusive
    · exact (sound.others step here same alive).2
  published existing found := by
    rcases published with unchanged | published
    · obtain ⟨beat, owner, token, named, mem⟩ := sound.published existing (unchanged ▸ found)
      exact ⟨beat, owner, token, named, here.drawn _ mem⟩
    · exact published existing found
  drawn_once a b token ha hb := by
    rcases drawn with same | ⟨new, fresh, more⟩
    · rw [same] at ha hb
      exact sound.drawn_once a b token ha hb
    · rw [more] at ha hb
      simp only [List.mem_append, List.mem_singleton, Prod.mk.injEq] at ha hb
      rcases ha with ha | ⟨rfl, rfl⟩
      · rcases hb with hb | ⟨rfl, rfl⟩
        · exact sound.drawn_once a b token ha hb
        · exact absurd rfl (fresh _ ha)
      · rcases hb with hb | ⟨rfl, -⟩
        · exact absurd rfl (fresh _ hb)
        · rfl
  tokens other token held := by
    by_cases same : other = id
    · rw [same] at held ⊢
      exact tokens token held
    · rw [here.token other same] at held
      exact here.drawn _ (sound.tokens other token held)
  learned other alive := by
    by_cases same : other = id
    · rw [same]
      exact learned
    · exact (sound.others step here same alive).1

theorem check_takeover_ok {config : Config} {alive : Bool} {now : Instant} {existing : LockRecord}
    (passed : check_takeover hosts config alive now existing = .ok ()) (no_override : config.override = false) :
    existing.hostname = some (hosts config.process).hostname ∧
      (alive = false ∨ heartbeat_stale config.heartbeat_threshold now existing = true) := by
  unfold check_takeover at passed
  split at passed
  · simp [no_override] at passed
  · rename_i same_host
    refine ⟨not_not.mp same_host, ?_⟩
    split at passed
    · split at passed
      · rename_i stale
        exact .inr stale
      · cases passed
    · rename_i not_alive
      exact .inl (by simpa using not_alive)

/-- A lock file that passes is one that may be taken over. -/
theorem Sound.may_take (sound : Sound hosts configs start trace s) {existing : LockRecord} {alive : Bool}
    {now : Instant} (found : s.file = some (.record existing))
    (known : alive = false → Dead hosts s ⟨(hosts (configs id).process).hostname, existing.pid⟩)
    (passed : check_takeover hosts (configs id) alive now existing = .ok ()) (no_override : (configs id).override = false) :
    MayTake hosts (configs id) s now existing := by
  obtain ⟨same_host, not_alive | stale⟩ := check_takeover_ok passed no_override
  · exact ⟨found, same_host, .inl (known not_alive)⟩
  · refine ⟨found, same_host, .inr ?_⟩
    obtain ⟨beats, -⟩ := sound.published existing found
    cases beat : existing.heartbeat_at with
    | none => exact absurd beat beats
    | some last =>
      simp only [heartbeat_stale, beat, decide_eq_true_eq] at stale
      exact ⟨last, rfl, stale⟩

/-- What reading the lock file teaches. -/
theorem Sound.after_read (sound : Sound hosts configs start trace s) (alive : s.life (configs id).process = .alive) {pc : Pc}
    (next : after_read (configs id) (s.token id) s.file (s.pc id) = some pc) :
    pc.inside = true ∧ (s.pc id).inside = true ∧ Learned hosts configs start trace s id pc := by
  have learned := sound.learned id alive
  unfold RunLocks.after_read at next
  split at next
  · rename_i started here
    rw [here] at learned ⊢
    split at next
    · rename_i existing read
      cases next
      refine ⟨rfl, rfl, learned, ?_⟩
      obtain ⟨file, found, read⟩ := Option.bind_eq_some_iff.mp read
      cases file with
      | unreadable => cases read
      | record => cases read; exact found
    · cases next
      by_cases override : (configs id).override = true
      · rw [if_pos override]
        exact ⟨rfl, rfl, learned, fun no_override => absurd override (by simp [no_override])⟩
      · rw [if_neg override]
        exact ⟨rfl, rfl, trivial⟩
  · rename_i here
    rw [here]
    split at next
    · rename_i current read
      split at next
      · cases next
        exact ⟨rfl, rfl, trivial⟩
      · rename_i mine
        cases started : current.started_at with
        | none =>
          rw [started] at next
          cases next
          exact ⟨rfl, rfl, trivial⟩
        | some started_at =>
          rw [started] at next
          cases next
          obtain ⟨file, found, read⟩ := Option.bind_eq_some_iff.mp read
          cases file with
          | unreadable => cases read
          | record => cases read; exact ⟨rfl, rfl, current, found, not_not.mp mine⟩
    · cases next
      exact ⟨rfl, rfl, trivial⟩
  · rename_i here
    rw [here]
    split at next
    · rename_i current read
      cases next
      split
      · rename_i mine
        obtain ⟨file, found, read⟩ := Option.bind_eq_some_iff.mp read
        cases file with
        | unreadable => cases read
        | record => cases read; exact ⟨rfl, rfl, current, found, mine.2⟩
      · exact ⟨rfl, rfl, trivial⟩
    · cases next
      exact ⟨rfl, rfl, trivial⟩
  · cases next

theorem Sound.proceed (sound : Sound hosts configs start trace s) {pc : Pc} (step : Step hosts configs s l (s.proceed id pc))
    (alive : s.life (configs id).process = .alive) (inside : (s.pc id).inside = true)
    (learned : Learned hosts configs start (trace ++ [l]) (s.proceed id pc) id pc) :
    Sound hosts configs start (trace ++ [l]) (s.proceed id pc) := by
  have here : Local configs s (s.proceed id pc) id := .proceed alive pc
  have held := sound.exclusive id alive inside
  rcases proceed_eq s id pc with goes | ⟨⟨started, rfl⟩, goes⟩
  · rw [goes] at step here learned ⊢
    refine sound.step_of step here (fun _ => held) (.inl rfl) (.inl rfl) (sound.tokens id) ?_
    rwa [goto_pc, Function.update_self]
  · rw [goes] at step here ⊢
    refine sound.step_of step here (fun _ => held) (.inl rfl) (.inl rfl) (fun token drawn => ?_) ?_
    · have given_up : Function.update s.token id none id = some token := drawn
      rw [Function.update_self] at given_up
      cases given_up
    · rw [show ({ s.goto id (.leaving (.acquire started) false) with token := _ } : State).pc id = _ from
        Function.update_self ..]
      trivial

/-- The lock file that an object writes is its own. -/
theorem Published.payload (hosts : ProcessId → Host) (configs : LockId → Config) (started_at now : Instant) (drew : ∃ token, s.token id = some token)
    (tokens : ∀ token, s.token id = some token → (id, token) ∈ s.drawn) :
    Published s (payload hosts (configs id) (s.token id) started_at now) ∧
      ∀ s' : State, s'.file = some (.record (RunLocks.payload hosts (configs id) (s.token id) started_at now)) →
        s'.drawn = s.drawn → Owns s' id := by
  obtain ⟨token, drew⟩ := drew
  refine ⟨⟨nofun, id, token, drew, tokens token drew⟩, fun s' found same => ⟨_, token, found, drew, ?_⟩⟩
  rw [same]
  exact tokens token drew

theorem Sound.step (sound : Sound hosts configs start trace s) (run : Run (Step hosts configs) start trace s)
    (step : Step hosts configs s l s') : Sound hosts configs start (trace ++ [l]) s' := by
  have keeps := step
  cases step with
  | @started process unborn =>
    have older : ∀ id, (configs id).process ≠ process →
        Function.update s.life process .alive (configs id).process = s.life (configs id).process :=
      fun id ne => Function.update_of_ne ne ..
    have idle : ∀ id, (configs id).process = process → s.pc id = .idle := fun id same => sound.unborn id (by rw [same, unborn])
    refine ⟨fun id unborn' => ?_, fun id alive inside => ?_, sound.published, sound.drawn_once, sound.tokens, fun id alive => ?_⟩
    · by_cases same : (configs id).process = process
      · exact idle id same
      · exact sound.unborn id ((older id same).symm.trans unborn')
    · by_cases same : (configs id).process = process
      · rw [show s.pc id = .idle from idle id same] at inside
        cases inside
      · exact sound.exclusive id ((older id same).symm.trans alive) inside
    · by_cases same : (configs id).process = process
      · show Learned hosts configs start _ _ id (s.pc id)
        rw [idle id same]
        trivial
      · exact (sound.learned id ((older id same).symm.trans alive)).frame keeps rfl (fun _ mem => mem) fun _ => rfl
  | @died process alive =>
    have still : ∀ id, Function.update s.life process .dead (configs id).process = .alive →
        (configs id).process ≠ process ∧ s.life (configs id).process = .alive := by
      intro id lives
      by_cases same : (configs id).process = process
      · rw [same, Function.update_self] at lives
        cases lives
      · exact ⟨same, (Function.update_of_ne same ..).symm.trans lives⟩
    refine ⟨fun id unborn => ?_, fun id lives inside => ?_, sound.published, sound.drawn_once, sound.tokens,
      fun id lives => (sound.learned id (still id lives).2).frame keeps rfl (fun _ mem => mem) fun _ => rfl⟩
    · by_cases same : (configs id).process = process
      · have dead : Function.update s.life process .dead (configs id).process = .unborn := unborn
        rw [same, Function.update_self] at dead
        cases dead
      · exact sound.unborn id ((Function.update_of_ne same ..).symm.trans unborn)
    · obtain ⟨other, lives⟩ := still id lives
      show s.flock.filter _ = some id
      rw [sound.exclusive id lives inside]
      simp [other]
  | @acquire id started token alive idle fresh =>
    refine sound.step_of keeps (keeps.local rfl) (fun inside => ?_) (.inl rfl) (.inr ⟨token, fresh, rfl⟩) (fun token' held => ?_) ?_
    · rw [goto_pc, Function.update_self] at inside
      cases inside
    · have drew : Function.update s.token id (some token) id = some token' := held
      rw [Function.update_self] at drew
      cases drew
      exact List.mem_append_right _ (List.mem_singleton_self _)
    · show Learned hosts configs start _ _ id (Function.update s.pc id _ id)
      rw [Function.update_self]
      exact ⟨token, Function.update_self ..⟩
  | @called id call token alive idle acquired no_acquire =>
    refine sound.step_of keeps (keeps.local rfl) (fun inside => ?_) (.inl rfl) (.inl rfl) (sound.tokens id) ?_
    · rw [goto_pc, Function.update_self] at inside
      cases inside
    · rw [goto_pc, Function.update_self]
      cases call with
      | acquire started => exact absurd rfl (no_acquire started)
      | heartbeat | release => trivial
  | @entered id call alive pc free =>
    have learned := sound.learned id alive
    rw [pc] at learned
    refine sound.step_of keeps (keeps.local rfl) (fun _ => rfl) (.inl rfl) (.inl rfl) (sound.tokens id) ?_
    show Learned hosts configs start _ _ id (Function.update s.pc id _ id)
    rw [Function.update_self]
    cases call with
    | acquire started => exact learned
    | heartbeat | release => trivial
  | @linked id started now alive pc absent =>
    have learned := sound.learned id alive
    rw [pc] at learned
    obtain ⟨published, owns⟩ := Published.payload hosts configs started now
      learned (sound.tokens id)
    refine sound.step_of keeps (keeps.local rfl) (fun _ => sound.exclusive id alive (by rw [pc]; rfl))
      (.inr fun existing found => ?_) (.inl rfl) (sound.tokens id) ?_
    · cases found
      exact published
    · show Learned hosts configs start _ _ id (Function.update s.pc id _ id)
      rw [Function.update_self]
      exact owns _ rfl rfl
  | @existed id started file alive pc present =>
    have learned := sound.learned id alive
    rw [pc] at learned
    refine sound.step_of keeps (keeps.local rfl) (fun _ => sound.exclusive id alive (by rw [pc]; rfl)) (.inl rfl) (.inl rfl)
      (sound.tokens id) ?_
    rw [goto_pc, Function.update_self]
    exact learned
  | @read id pc alive next =>
    obtain ⟨-, inside, learned⟩ := sound.after_read alive next
    refine sound.proceed keeps alive inside ?_
    rcases proceed_eq s id pc with goes | ⟨⟨started, rfl⟩, -⟩
    · rw [goes] at keeps ⊢
      exact learned.frame keeps rfl (fun _ mem => mem) fun _ => rfl
    · trivial
  | @judged id started existing alive now living pc known =>
    have learned := sound.learned id living
    rw [pc] at learned
    have inside : (s.pc id).inside = true := by rw [pc]; rfl
    cases passed : check_takeover hosts (configs id) alive now existing with
    | error e =>
      simp only [passed] at keeps ⊢
      exact sound.proceed keeps living inside trivial
    | ok =>
      simp only [passed] at keeps ⊢
      refine sound.proceed keeps living inside ⟨learned.1, fun no_override => ?_⟩
      exact ⟨trace, alive, now, [], s, _, existing, rfl, run, keeps, .start, sound.may_take learned.2 known passed no_override, rfl⟩
  | @replaced id call started_at now alive pc =>
    have learned := sound.learned id alive
    rw [pc] at learned
    have drew : ∃ token, s.token id = some token := by
      cases call with
      | acquire started => exact learned.1
      | heartbeat =>
        obtain ⟨existing, found, mine⟩ := learned
        obtain ⟨-, -, token, named, -⟩ := sound.published existing found
        exact ⟨token, mine.symm.trans named⟩
      | release => exact learned.elim
    obtain ⟨published, owns⟩ := Published.payload hosts configs started_at now
      drew (sound.tokens id)
    refine sound.step_of keeps (keeps.local rfl) (fun _ => sound.exclusive id alive (by rw [pc]; rfl))
      (.inr fun existing found => ?_) (.inl rfl) (sound.tokens id) ?_
    · cases found
      exact published
    · show Learned hosts configs start _ _ id (Function.update s.pc id _ id)
      rw [Function.update_self]
      cases call with
      | acquire started => exact owns _ rfl rfl
      | heartbeat | release => trivial
  | @unlinked id alive pc =>
    refine sound.step_of keeps (keeps.local rfl) (fun _ => sound.exclusive id alive (by rw [pc]; rfl))
      (.inr fun existing found => by cases found) (.inl rfl) (sound.tokens id) ?_
    show Learned hosts configs start _ _ id (Function.update s.pc id _ id)
    rw [Function.update_self]
    trivial
  | @raised id call alive pc =>
    unfold State.raise at keeps ⊢
    split at keeps
    · refine sound.step_of keeps (keeps.local rfl) (fun inside => ?_) (.inl rfl) (.inl rfl) (sound.tokens id) ?_
      · rw [goto_pc, Function.update_self] at inside
        cases inside
      · rw [goto_pc, Function.update_self]
        trivial
    · rename_i here
      rw [here] at pc
      cases pc
      exact sound.proceed keeps alive (by rw [here]; rfl) trivial
    · rename_i not_entering not_judging
      refine sound.step_of keeps (keeps.local rfl) (fun _ => sound.exclusive id alive ?_) (.inl rfl) (.inl rfl)
        (sound.tokens id) ?_
      · cases here : s.pc id with
        | idle => rw [here] at pc; cases pc
        | entering call => exact absurd here (not_entering call)
        | _ => rfl
      · rw [goto_pc, Function.update_self]
        cases call with
        | acquire | heartbeat | release => trivial
  | @left id call done alive pc =>
    have returns : ((s.goto id .idle).return id call done).pc id = .idle ∧
        ((s.goto id .idle).return id call done).file = s.file ∧ ((s.goto id .idle).return id call done).drawn = s.drawn ∧
        ∀ token, ((s.goto id .idle).return id call done).token id = some token → s.token id = some token := by
      unfold State.return
      split
      · exact ⟨Function.update_self .., rfl, rfl, fun _ held => held⟩
      · refine ⟨Function.update_self .., rfl, rfl, fun token held => ?_⟩
        have forgotten : Function.update s.token id none id = some token := held
        rw [Function.update_self] at forgotten
        cases forgotten
      · exact ⟨Function.update_self .., rfl, rfl, fun _ held => held⟩
    obtain ⟨idle, file, drawn, token⟩ := returns
    refine sound.step_of keeps (keeps.local rfl) (fun inside => ?_) (.inl file) (.inl drawn)
      (fun t held => drawn ▸ sound.tokens id t (token t held)) ?_
    · rw [show _ = Pc.idle from idle] at inside
      cases inside
    · rw [show _ = Pc.idle from idle]
      trivial

theorem Sound.reached (initial : Initial start) (run : Run (Step hosts configs) start trace s) :
    Sound hosts configs start trace s :=
  run.history (H := Sound hosts configs start) (fun _ _ _ _ run sound step => sound.step run step) initial.sound

/-- An object that is about to rewrite or remove the lock file for its heartbeat or release owns it. -/
theorem Sound.owns (sound : Sound hosts configs start trace s) {existing : LockRecord}
    (found : s.file = some (.record existing)) (mine : existing.token = s.token id) : Owns s id := by
  obtain ⟨-, -, token, named, -⟩ := sound.published existing found
  exact ⟨existing, token, found, named, sound.tokens id token (mine.symm.trans named)⟩

end

/-! ### Every run -/

/-- What exclusion and fencing ask of a step that a run may take. -/
structure Fenced (hosts : ProcessId → Host) (configs : LockId → Config) (start : State) (trace : List Label) (s : State)
    (l : Label) (s' : State) : Prop where
  /-- One object owns the lock. -/
  sole : ∀ a b, Owns s a → Owns s b → a = b
  /-- An acquire publishes its lock over an existing one only as it judged that one. -/
  takeover : ∀ id started now, (configs id).override = false → (s.pc id).call = some (.acquire started) →
    l = .linked id now ∨ l = .replaced id now → s.file = none ∨ Judged hosts configs start trace s id
  taken : ∀ id started now, (s.pc id).call = some (.acquire started) → l = .linked id now ∨ l = .replaced id now → Owns s' id
  /-- An acquire that returns owns the lock. -/
  succeeds : ∀ id started, l = .left id → s.pc id = .leaving (.acquire started) true → Owns s id
  /-- A heartbeat or release of an object leaves another owner's lock as it is. -/
  fencing : ∀ id owner, l.id = some id → (s.pc id).call = some .heartbeat ∨ (s.pc id).call = some .release →
    Owns s owner → owner ≠ id → s'.file = s.file

section
variable {start s s' : State} {trace : List Label} {l : Label}

theorem Sound.fencing (sound : Sound hosts configs start trace s) (step : Step hosts configs s l s') {id owner : LockId}
    (by_id : l.id = some id) (call : (s.pc id).call = some .heartbeat ∨ (s.pc id).call = some .release)
    (owns : Owns s owner) (other : owner ≠ id) : s'.file = s.file := by
  have not_own : ∀ {existing : LockRecord}, s.file = some (.record existing) → existing.token = s.token id → False :=
    fun found mine => other (sound.owner_unique owns (sound.owns found mine))
  cases step with
  | started => cases by_id
  | died => cases by_id
  | linked alive pc absent =>
    cases by_id
    rw [pc] at call
    rcases call with call | call <;> cases call
  | @replaced id call' started_at now alive pc =>
    cases by_id
    have learned := sound.learned _ alive
    rw [pc] at learned call
    cases call' with
    | acquire started => rcases call with call | call <;> cases call
    | heartbeat =>
      obtain ⟨existing, found, mine⟩ := learned
      exact (not_own found mine).elim
    | release => exact learned.elim
  | unlinked alive pc =>
    cases by_id
    have learned := sound.learned _ alive
    rw [pc] at learned
    obtain ⟨existing, found, mine⟩ := learned
    exact (not_own found mine).elim
  | acquire | called | entered | existed => rfl
  | @read id pc =>
    rcases proceed_eq s id pc with goes | ⟨-, goes⟩ <;> rw [goes] <;> rfl
  | @judged id =>
    rcases proceed_eq s id _ with goes | ⟨-, goes⟩ <;> rw [goes] <;> rfl
  | @raised id call =>
    obtain ⟨pc, -, raises | raises, -⟩ := raise_eq s id call
    · rw [raises]
      rfl
    · rcases proceed_eq s id pc with goes | ⟨-, goes⟩ <;> rw [raises, goes] <;> rfl
  | left =>
    show (State.return _ _ _ _).file = _
    unfold State.return
    split <;> rfl

/-- Exclusion and fencing: whatever the processes of whatever hosts do, and wherever they die, an acquire without override
    takes over only a readable lock of its own host whose process is dead or whose heartbeat is too old, and from then
    on no heartbeat or release of another object changes the lock. -/
theorem run_lock_fenced (initial : Initial start) (run : Run (Step hosts configs) start trace s) (step : Step hosts configs s l s') :
    Fenced hosts configs start trace s l s' := by
  have sound := Sound.reached initial run
  have after := sound.step run step
  refine ⟨fun a b => sound.owner_unique, ?_, ?_, ?_, fun id owner => sound.fencing step⟩
  · rintro id started now no_override call (rfl | rfl)
    · cases step with
      | linked alive pc absent => exact .inl absent
    · cases step with
      | @replaced _ call' started_at _ alive pc =>
        have learned := sound.learned id alive
        rw [pc] at learned call
        cases call
        exact .inr (learned.2 no_override)
  · rintro id started now call (rfl | rfl)
    · cases step with
      | @linked _ started' _ alive pc absent =>
        have learned : Learned hosts configs start _ _ id (Function.update s.pc id (.leaving (.acquire started') true) id) :=
          after.learned id alive
        rw [Function.update_self] at learned
        exact learned
    · cases step with
      | @replaced _ call' started_at _ alive pc =>
        rw [pc] at call
        cases call
        have learned : Learned hosts configs start _ _ id (Function.update s.pc id (.leaving (.acquire started) true) id) :=
          after.learned id alive
        rw [Function.update_self] at learned
        exact learned
  · rintro id started rfl here
    cases step with
    | left alive pc =>
      have learned := sound.learned id alive
      rw [here] at learned
      exact learned

end

end RunLocks

namespace Sample
open RunLocks Transition

def server_host (process : ProcessId) : Host := ⟨"counsel", 100 + process⟩

/-- Each process has one object. -/
def run_lock (id : LockId) : Config := { process := id, run_id := "r1" }

def unlocked : RunLocks.State where
  file := none
  flock := none
  life _ := .unborn
  acquired _ := false
  token _ := none
  pc _ := .idle
  drawn := []

theorem unlocked_initial : Initial unlocked := ⟨.inl rfl, rfl, fun _ => rfl, fun _ => rfl, rfl⟩

def at_noon : Instant := ⟨date 2026 7 12, 0⟩

/-- The process that has the lock dies, and another takes it over. -/
theorem dead_owner_fenced : ∃ trace s s', s.file ≠ none ∧
    Fenced server_host run_lock unlocked trace s (.replaced 1 at_noon) s' := by
  have locked := ((((@Run.start _ _ (RunLocks.Step server_host run_lock) unlocked).snoc
    (@RunLocks.Step.started _ _ _ 0 rfl)).snoc (@RunLocks.Step.acquire _ _ _ 0 at_noon "first" rfl rfl nofun)).snoc
    (@RunLocks.Step.entered _ _ _ 0 (.acquire at_noon) rfl rfl rfl)).snoc
    (@RunLocks.Step.linked _ _ _ 0 at_noon at_noon rfl rfl rfl)
  have fresh : ∀ drawn ∈ [((0 : LockId), "first")], drawn.2 ≠ "second" := by decide
  have dead : ∀ process, Function.update (Function.update (Function.update (fun _ => Life.unborn) 0 .alive) 0 .dead) 1 .alive
      process = .alive → server_host process ≠ ⟨"counsel", 100⟩ := by
    intro process alive
    match process with
    | 0 => cases alive
    | 1 => decide
    | _ + 2 => cases alive
  have found := (((((locked.snoc (@RunLocks.Step.died _ _ _ 0 rfl)).snoc (@RunLocks.Step.started _ _ _ 1 rfl)).snoc
    (@RunLocks.Step.acquire _ _ _ 1 at_noon "second" rfl rfl fresh)).snoc
    (@RunLocks.Step.entered _ _ _ 1 (.acquire at_noon) rfl rfl rfl)).snoc
    (@RunLocks.Step.existed _ _ _ 1 at_noon _ rfl rfl rfl)).snoc (@RunLocks.Step.read _ _ _ 1 _ rfl rfl)
  have judged := found.snoc (@RunLocks.Step.judged _ _ _ 1 at_noon _ false at_noon rfl rfl fun _ => dead)
  refine ⟨_, _, _, ?_, run_lock_fenced unlocked_initial judged
    (@RunLocks.Step.replaced _ _ _ 1 (.acquire at_noon) at_noon at_noon rfl rfl)⟩
  exact Option.some_ne_none _

end Sample

end MootLoop

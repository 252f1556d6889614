import Ancore.Library.Interleaving

/-! # Programs that run alone

A program whose calls follow one another without those of others.  `alone` runs it
through given circumstances; `Always` says what it comes to in all circumstances of
a kind, and `always_bind` takes it apart.

`traced` keeps the calls that are made as well, and `stopped` runs it to some point
only.  `Throughout` is the triple for programs that may be stopped anywhere: besides
what they end with it has a condition that holds at every point of the run.
-/

namespace Ancore.Library

/-- The calls made, each with its answer, latest first. -/
abbrev CallLog {Call : Type} (Answer : Call → Type) : Type := List ((call : Call) × Answer call)

namespace Program

variable {Call Circumstance State α β ε : Type} {Answer : Call → Type}

/-- The program run alone: its result, the state it leaves and the circumstances still to come.
Calls after the last of these are made in calm ones. -/
def alone (perform : (request : Call) → Circumstance → State → Answer request × State)
    (calm : Circumstance) :
    Program Answer α → State × List Circumstance → α × State × List Circumstance
  | .done result, course => (result, course)
  | .call request resume, (state, circumstances) =>
    (resume (perform request (circumstances.headD calm) state).1).alone perform calm
      ((perform request (circumstances.headD calm) state).2, circumstances.tail)

/-- In all permitted circumstances the program run alone ends as stated. -/
def Always (perform : (request : Call) → Circumstance → State → Answer request × State)
    (permits : Circumstance → Prop) (post : α → State → Prop) :
    Program Answer α → State → Prop
  | .done result, state => post result state
  | .call request resume, state => ∀ circumstance, permits circumstance →
      (resume (perform request circumstance state).1).Always perform permits post
        (perform request circumstance state).2

variable {perform : (request : Call) → Circumstance → State → Answer request × State}
  {permits : Circumstance → Prop} {calm : Circumstance} {state : State}

theorem always_mono {strong weak : α → State → Prop} {program : Program Answer α}
    (always : program.Always perform permits strong state)
    (weaker : ∀ result state, strong result state → weak result state) :
    program.Always perform permits weak state := by
  induction program generalizing state with
  | done result => exact weaker result state always
  | call request resume inductionHypothesis =>
    exact fun circumstance permitted => inductionHypothesis _ (always circumstance permitted)

theorem always_bind {post : β → State → Prop} {program : Program Answer α}
    {next : α → Program Answer β}
    (always : program.Always perform permits
      (fun result state => (next result).Always perform permits post state) state) :
    (program >>= next).Always perform permits post state := by
  induction program generalizing state with
  | done result => exact always
  | call request resume inductionHypothesis =>
    exact fun circumstance permitted => inductionHypothesis _ (always circumstance permitted)

/-- What throws is not gone on with. -/
theorem always_bindExcept {post : Except ε β → State → Prop}
    {code : ExceptT ε (Program Answer) α} {next : α → ExceptT ε (Program Answer) β}
    (always : code.run.Always perform permits
      (fun result state =>
        match result with
        | .ok value => (next value).run.Always perform permits post state
        | .error error => post (.error error) state) state) :
    (code >>= next).run.Always perform permits post state := by
  refine always_bind (always_mono always ?_)
  intro result state ended
  cases result with
  | ok value => exact ended
  | error error => exact ended

theorem alone_of_always {post : α → State → Prop} {program : Program Answer α}
    (always : program.Always perform permits post state) {circumstances : List Circumstance}
    (permitted : ∀ circumstance ∈ circumstances, permits circumstance) (peaceful : permits calm) :
    post (program.alone perform calm (state, circumstances)).1
      (program.alone perform calm (state, circumstances)).2.1 := by
  induction program generalizing state circumstances with
  | done result => exact always
  | call request resume inductionHypothesis =>
    refine inductionHypothesis _ (always _ ?_) fun circumstance member =>
      permitted circumstance (List.mem_of_mem_tail member)
    cases circumstances with
    | nil => exact peaceful
    | cons first rest => exact permitted first List.mem_cons_self

/-- Every call that the program may make is of a kind. -/
def Makes (kind : Call → Prop) : Program Answer α → Prop
  | .done _ => True
  | .call request resume => kind request ∧ ∀ answer, (resume answer).Makes kind

theorem makes_bind {kind : Call → Prop} {program : Program Answer α}
    {next : α → Program Answer β} (first : program.Makes kind)
    (second : ∀ result, (next result).Makes kind) : (program >>= next).Makes kind := by
  induction program with
  | done result => exact second result
  | call request resume inductionHypothesis =>
    exact ⟨first.1, fun answer => inductionHypothesis answer (first.2 answer)⟩

theorem makes_bindExcept {kind : Call → Prop} {code : ExceptT ε (Program Answer) α}
    {next : α → ExceptT ε (Program Answer) β} (first : code.run.Makes kind)
    (second : ∀ result, (next result).run.Makes kind) : (code >>= next).run.Makes kind := by
  refine makes_bind first fun result => ?_
  cases result with
  | ok value => exact second value
  | error error => trivial

/-- What calls of the kind leave as it is holds at the end. -/
theorem always_of_makes {kind : Call → Prop} {holds : State → Prop} {program : Program Answer α}
    (kept : ∀ request circumstance state, kind request → holds state →
      holds (perform request circumstance state).2)
    (makes : program.Makes kind) (held : holds state) :
    program.Always perform permits (fun _ state => holds state) state := by
  induction program generalizing state with
  | done result => exact held
  | call request resume inductionHypothesis =>
    exact fun circumstance _ =>
      inductionHypothesis _ (makes.2 _) (kept request circumstance state makes.1 held)

/-! ## Stopped somewhere -/

/-- What a stopped program has still to do, the state it reached and the calls it made. -/
structure Stopped (State : Type) (Answer : Call → Type) (α : Type) where
  rest : Program Answer α
  state : State
  made : CallLog Answer

/-- The program stopped after as many calls as there are circumstances, or at its end. -/
def stopped (perform : (request : Call) → Circumstance → State → Answer request × State) :
    List Circumstance → Stopped State Answer α → Stopped State Answer α
  | [], run => run
  | circumstance :: circumstances, ⟨.call request resume, state, made⟩ =>
    stopped perform circumstances
      ⟨resume (perform request circumstance state).1, (perform request circumstance state).2,
        ⟨request, (perform request circumstance state).1⟩ :: made⟩
  | _ :: _, ⟨.done result, state, made⟩ => ⟨.done result, state, made⟩

/-- In all permitted circumstances the condition holds wherever the program is stopped, and it ends
as stated. -/
def Throughout (perform : (request : Call) → Circumstance → State → Answer request × State)
    (permits : Circumstance → Prop) (crash : CallLog Answer → State → Prop)
    (post : α → CallLog Answer → State → Prop) :
    Program Answer α → CallLog Answer → State → Prop
  | .done result, made, state => crash made state ∧ post result made state
  | .call request resume, made, state => crash made state ∧
      ∀ circumstance, permits circumstance →
        (resume (perform request circumstance state).1).Throughout perform permits crash post
          (⟨request, (perform request circumstance state).1⟩ :: made)
          (perform request circumstance state).2

variable {crash : CallLog Answer → State → Prop} {made : CallLog Answer}

theorem throughout_mono {strong weak : α → CallLog Answer → State → Prop}
    {program : Program Answer α}
    (throughout : program.Throughout perform permits crash strong made state)
    (weaker : ∀ result made state, crash made state → strong result made state →
      weak result made state) :
    program.Throughout perform permits crash weak made state := by
  induction program generalizing made state with
  | done result => exact ⟨throughout.1, weaker result made state throughout.1 throughout.2⟩
  | call request resume inductionHypothesis =>
    exact ⟨throughout.1, fun circumstance permitted =>
      inductionHypothesis _ (throughout.2 circumstance permitted)⟩

theorem throughout_wider {wide : CallLog Answer → State → Prop}
    {post : α → CallLog Answer → State → Prop} {program : Program Answer α}
    (throughout : program.Throughout perform permits crash post made state)
    (wider : ∀ made state, crash made state → wide made state) :
    program.Throughout perform permits wide post made state := by
  induction program generalizing made state with
  | done result => exact ⟨wider made state throughout.1, throughout.2⟩
  | call request resume inductionHypothesis =>
    exact ⟨wider made state throughout.1, fun circumstance permitted =>
      inductionHypothesis _ (throughout.2 circumstance permitted)⟩

theorem throughout_bind {post : β → CallLog Answer → State → Prop} {program : Program Answer α}
    {next : α → Program Answer β}
    (throughout : program.Throughout perform permits crash
      (fun result made state => (next result).Throughout perform permits crash post made state)
      made state) :
    (program >>= next).Throughout perform permits crash post made state := by
  induction program generalizing made state with
  | done result => exact throughout.2
  | call request resume inductionHypothesis =>
    exact ⟨throughout.1, fun circumstance permitted =>
      inductionHypothesis _ (throughout.2 circumstance permitted)⟩

theorem throughout_bindExcept {post : Except ε β → CallLog Answer → State → Prop}
    {code : ExceptT ε (Program Answer) α} {next : α → ExceptT ε (Program Answer) β}
    (throughout : code.run.Throughout perform permits crash
      (fun result made state =>
        match result with
        | .ok value => (next value).run.Throughout perform permits crash post made state
        | .error error => post (.error error) made state) made state) :
    (code >>= next).run.Throughout perform permits crash post made state := by
  refine throughout_bind (throughout_mono throughout ?_)
  intro result made state holds ended
  cases result with
  | ok value => exact ended
  | error error => exact ⟨holds, ended⟩

theorem throughout_lift {post : Except ε α → CallLog Answer → State → Prop}
    {program : Program Answer α}
    (throughout : program.Throughout perform permits crash (fun result => post (.ok result)) made
      state) :
    (ExceptT.lift program : ExceptT ε (Program Answer) α).run.Throughout perform permits crash post
      made state :=
  throughout_bind (throughout_mono throughout fun _ _ _ holds ended => ⟨holds, ended⟩)

theorem always_of_throughout {post : α → CallLog Answer → State → Prop}
    {program : Program Answer α}
    (throughout : program.Throughout perform permits crash post made state) :
    program.Always perform permits (fun result state => ∃ made, post result made state) state := by
  induction program generalizing made state with
  | done result => exact ⟨made, throughout.2⟩
  | call request resume inductionHypothesis =>
    exact fun circumstance permitted =>
      inductionHypothesis _ (throughout.2 circumstance permitted)

/-- The program run alone, with the calls it makes. -/
def traced (perform : (request : Call) → Circumstance → State → Answer request × State)
    (calm : Circumstance) :
    Program Answer α → State → List Circumstance → CallLog Answer → α × CallLog Answer × State
  | .done result, state, _, made => (result, made, state)
  | .call request resume, state, circumstances, made =>
    (resume (perform request (circumstances.headD calm) state).1).traced perform calm
      (perform request (circumstances.headD calm) state).2 circumstances.tail
      (⟨request, (perform request (circumstances.headD calm) state).1⟩ :: made)

theorem traced_of_throughout {post : α → CallLog Answer → State → Prop}
    {program : Program Answer α}
    (throughout : program.Throughout perform permits crash post made state)
    {circumstances : List Circumstance}
    (permitted : ∀ circumstance ∈ circumstances, permits circumstance) (peaceful : permits calm) :
    post (program.traced perform calm state circumstances made).1
      (program.traced perform calm state circumstances made).2.1
      (program.traced perform calm state circumstances made).2.2 := by
  induction program generalizing state made circumstances with
  | done result => exact throughout.2
  | call request resume inductionHypothesis =>
    refine inductionHypothesis _ (throughout.2 _ ?_) fun circumstance member =>
      permitted circumstance (List.mem_of_mem_tail member)
    cases circumstances with
    | nil => exact peaceful
    | cons first rest => exact permitted first List.mem_cons_self

/-- Wherever the program is stopped, the condition holds; and if it has ended, it has as stated. -/
theorem stopped_of_throughout {post : α → CallLog Answer → State → Prop}
    {program : Program Answer α}
    (throughout : program.Throughout perform permits crash post made state)
    {circumstances : List Circumstance}
    (permitted : ∀ circumstance ∈ circumstances, permits circumstance) :
    let run := stopped perform circumstances ⟨program, state, made⟩
    crash run.made run.state ∧
      ∀ result, run.rest = .done result → post result run.made run.state := by
  induction circumstances generalizing program made state with
  | nil =>
    cases program with
    | done result =>
      refine ⟨throughout.1, ?_⟩
      rintro _ ⟨⟩
      exact throughout.2
    | call request resume => exact ⟨throughout.1, nofun⟩
  | cons circumstance circumstances inductionHypothesis =>
    cases program with
    | done result =>
      refine ⟨throughout.1, ?_⟩
      rintro _ ⟨⟩
      exact throughout.2
    | call request resume =>
      exact inductionHypothesis (throughout.2 circumstance (permitted _ List.mem_cons_self))
        fun later member => permitted later (List.mem_cons_of_mem _ member)

end Program

end Ancore.Library

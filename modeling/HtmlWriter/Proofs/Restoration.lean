import HtmlWriter.Proofs.Bodies

/-! Scripts put back what they found. Whatever a script does, the rules after it are those
before it; and an element's body puts back the formatting settings too, on every way out
of it. -/

namespace HtmlWriter.Script
open Document Writing
variable {α ν : Type}

theorem after_eq_finalState (session : Session) (running : Running α) :
    session.after running = finalState running session := by
  unfold Session.after finalState
  cases running.run session <;> rfl

theorem run_lift (writing : Writing α) (session : Session) :
    (liftM writing : Running α).run session =
      match writing.run session.document with
      | .ok value document => .ok value { session with document }
      | .error error document => .error (Stop.failure (.error error)) { session with document } :=
  rfl

theorem finalState_lift (writing : Writing α) (session : Session) :
    finalState (liftM writing : Running α) session =
      { session with document := finalState writing session.document } := by
  rw [finalState, run_lift, finalState]
  cases writing.run session.document <;> rfl

theorem keeps_lift {view : Document → ν} {writing : Writing α} (kept : Keeps view writing) :
    Keeps (view ∘ Session.document) (liftM writing : Running α) := by
  intro session
  rw [finalState_lift]
  exact kept session.document

theorem leaves_lift {around : Surroundings} {writing : Writing α}
    (left : Leaves id around writing) :
    Leaves Session.document around (liftM writing : Running α) := by
  intro outer session inside
  rw [finalState_lift]
  exact left outer session.document inside

theorem openBody_opens (start : StartTag) :
    Opens Session.document (liftM start.openBody : Running Body) := by
  intro session
  have opened := start.openBody_opens session.document
  rw [run_lift]
  cases ran : start.openBody.run session.document with
  | ok body entered =>
    rw [ran] at opened
    exact opened
  | error error final =>
    rw [ran] at opened
    exact opened

namespace Running
variable {view : Document → ν}

theorem record_keeps (word : String) (failure : Option Failure) (report : Option Report)
    (withFormat : Bool) : Keeps (view ∘ Session.document) (record word failure report withFormat) :=
  .modify fun _ => rfl

theorem collect_keeps (sink : Option Sink) : Keeps (view ∘ Session.document) (collect sink) :=
  .bind (.modify fun _ => rfl) fun _ => .pure _

theorem recorded_keeps (word : String) {step : Running (Option Report)}
    (kept : Keeps (view ∘ Session.document) step) :
    Keeps (view ∘ Session.document) (recorded word step) := by
  refine .bind (.tryCatch kept fun stop => ?_) fun report => record_keeps word none report true
  cases stop with
  | failure failure => exact .bind (record_keeps _ _ _ _) fun _ => .throw _
  | panic message => exact .throw _

theorem withoutUserErrors_keeps {steps : Running Unit}
    (kept : Keeps (view ∘ Session.document) steps) :
    Keeps (view ∘ Session.document) (withoutUserErrors steps) := by
  refine .tryCatch kept fun stop => ?_
  split <;> exact .throw _

theorem drop_leaves (body : Body) {around : Surroundings} (held : body.around = some around)
    (unwinding : Bool) : Leaves Session.document around (drop body unwinding) := by
  cases unwinding with
  | true => exact leaves_lift (body.abandon_leaves held)
  | false =>
    intro outer session inside
    have noted : finalState (drop body false) session =
        finalState (liftM body.close : Running Unit) session :=
      finalState_tryCatch_of_noted (fun _ _ => rfl) session
    rw [noted]
    exact leaves_lift (body.close_leaves held) outer session inside

theorem drop_keeps (body : Body) (ended : body.around = none) (unwinding : Bool) :
    Keeps (standing ∘ Session.document) (drop body unwinding) := by
  cases unwinding with
  | true => exact keeps_lift (body.abandon_keeps ended)
  | false => exact .tryCatch (keeps_lift (body.close_keeps ended)) fun _ => .pure ()

/-- A request to end a body, whose failure is passed on later. -/
def requestEnd (body : Body) : Running (Option Stop) :=
  tryCatch (do liftM body.close; return none) fun stop => return some stop

theorem finalState_requestEnd (body : Body) (session : Session) :
    finalState (requestEnd body) session = finalState (liftM body.close : Running Unit) session := by
  rw [requestEnd, finalState_tryCatch_of_noted (fun _ _ => rfl)]
  cases ran : (liftM body.close : Running Unit).run session with
  | ok value final =>
    rw [finalState_bind_ok ran]
    change final = _
    rw [finalState, ran]
  | error stop final => rw [finalState_bind_error ran, finalState, ran]

theorem endBody_keeps (body : Body) (ended : body.around = none) (times : Nat) :
    Keeps (standing ∘ Session.document) (endBody body times) := by
  induction times with
  | zero => exact .pure ()
  | succ times ih =>
    have same : body.ended = body := by rw [Body.ended, ← ended]
    refine .bind ?_ fun stopped => .bind (record_keeps _ _ _ _) fun _ => .bind (same ▸ ih) fun _ => ?_
    · intro session
      have closed := keeps_lift (body.close_keeps ended) session
      rwa [← finalState_requestEnd] at closed
    · cases stopped with
      | some stop => exact .throw stop
      | none => exact .pure ()

/-- The first request leaves the body, and the others change nothing. -/
theorem endBody_leaves (body : Body) {around : Surroundings} (held : body.around = some around)
    (times : Nat) : Leaves Session.document around (endBody body (times + 1)) := by
  have first : Leaves Session.document around (requestEnd body) := by
    intro outer session inside
    have closed := leaves_lift (body.close_leaves held) outer session inside
    rwa [← finalState_requestEnd] at closed
  refine first.bind fun stopped => .bind (record_keeps _ _ _ _) fun _ =>
    .bind (endBody_keeps _ rfl times) fun _ => ?_
  cases stopped with
  | some stop => exact .throw stop
  | none => exact .pure ()

end Running

theorem addAttributes_keeps (start : StartTag) (attributes : List Attribute) :
    Keeps (standing ∘ Session.document) (addAttributes start attributes) := by
  induction attributes generalizing start with
  | nil => exact .pure start
  | cons requested rest ih =>
    exact .bind (keeps_lift (start.add_keeps requested)) fun start =>
      .bind (Running.record_keeps _ _ _ _) fun _ => ih start

theorem Start.begin_keeps (place : Place) (start : Start) (attributes : List Attribute) :
    Keeps (standing ∘ Session.document) (start.begin place attributes) := by
  unfold Start.begin
  refine .bind (keeps_lift ?_) fun opened => .bind (Running.record_keeps _ _ _ _) fun _ =>
    addAttributes_keeps opened attributes
  cases start with
  | here tag => exact place.element_keeps tag
  | root => exact Place.document.element_keeps .html

theorem Ending.finish_keeps (start : StartTag) (ending : Ending) :
    Keeps standing (ending.finish start) := by
  cases ending with
  | close => exact start.close_keeps
  | text content => exact start.text_keeps content
  | textOption content => exact start.textOption_keeps content
  | giveUp => exact .pure ()

theorem WriteCall.perform_keeps (place : Place) (call : WriteCall) :
    Keeps standing (call.perform place) := by
  cases call with
  | text content => exact place.text_keeps content
  | comment content => exact comment_keeps content
  | node tree => exact tree.write_keeps place
  | _ => exact (perform_prints rfl place).keepsStanding

theorem writeBody_keeps (start : StartTag) {content : Place → Running Unit}
    (kept : ∀ place, Keeps (rules ∘ Session.document) (content place)) :
    Keeps (standing ∘ Session.document) (start.writeBody (ε := Stop) content) :=
  (openBody_opens start).keeps fun body _ held =>
    leaves_tryCatch (kept body.place) (fun _ => leaves_lift (body.abandon_leaves held))
      (leaves_lift (body.close_leaves held))

theorem nested_keeps (place : Place) (tags : List Tag) {content : Place → Running Unit}
    (kept : ∀ place, Keeps (rules ∘ Session.document) (content place)) :
    Keeps (rules ∘ Session.document) (place.nested (ε := Stop) tags content) := by
  induction tags generalizing place with
  | nil => exact kept place
  | cons tag rest ih =>
    exact .bind ((keeps_lift (place.element_keeps tag)).mono Standing.toRules) fun start =>
      (writeBody_keeps start ih).mono Standing.toRules

theorem body_keeps (place : Place) (start : Start) (attributes : List Attribute)
    (keepsErrors : Bool) {steps : List Step}
    (kept : ∀ place, Keeps (rules ∘ Session.document) (runAll place steps)) :
    Keeps (standing ∘ Session.document)
      ((Step.body start attributes keepsErrors steps).run place) := by
  rw [Step.run]
  refine Running.recorded_keeps _ (.bind (start.begin_keeps place attributes) fun opened =>
    .bind (writeBody_keeps opened fun inside => ?_) fun _ => .pure _)
  refine .bind (Running.record_keeps _ _ _ _) fun _ => .ite (kept inside) ?_
  exact Running.withoutUserErrors_keeps (kept inside)

private theorem leaves_recordEntered {around : Surroundings} {rest : Running α}
    (left : Leaves Session.document around rest) (inside : Place) :
    Leaves Session.document around (do recordEntered inside; rest) :=
  fun outer _ held => left outer _ held

/-- Open a body, run steps in it, and request it to end so many times. -/
def Running.hold (opened : StartTag) (steps : List Step) (ends : Nat) : Running Body := do
  let body ← liftM opened.openBody
  recordEntered body.place
  holding body (runAll body.place steps)
  endBody body ends
  return if ends = 0 then body else body.ended

private theorem run_held (place : Place) (start : Start) (attributes : List Attribute)
    (steps : List Step) (ends : Nat) (afterwards : List Step) :
    (Step.held start attributes steps ends afterwards).run place = Running.recorded "el" (do
      let opened ← start.begin place attributes
      let body ← Running.hold opened steps ends
      Running.holding body (runAll body.place afterwards)
      Running.drop body false
      return none) := by
  simp only [Step.run, Running.hold, bind_assoc, pure_bind]

private theorem dropped_keeps (place : Place) (start : Start) (attributes : List Attribute)
    {steps afterwards : List Step}
    (kept : ∀ place, Keeps (rules ∘ Session.document) (runAll place steps))
    (keptAfterwards : ∀ place, Keeps (rules ∘ Session.document) (runAll place afterwards)) :
    Keeps (standing ∘ Session.document)
      ((Step.held start attributes steps 0 afterwards).run place) := by
  rw [Step.run]
  refine Running.recorded_keeps _ (.bind (start.begin_keeps place attributes) fun opened =>
    (openBody_opens opened).keeps fun body around held => ?_)
  have ended : Leaves Session.document around (do
      Running.holding body (runAll body.place afterwards)
      Running.drop body false
      return none : Running (Option Report)) :=
    leaves_tryCatch (keptAfterwards body.place) (fun _ => Running.drop_leaves body held _)
      ((Running.drop_leaves body held false).bind fun _ => .pure _)
  exact leaves_recordEntered
    (leaves_tryCatch (kept body.place) (fun _ => Running.drop_leaves body held _) ended) _

private theorem hold_keeps (opened : StartTag) {steps : List Step}
    (kept : ∀ place, Keeps (rules ∘ Session.document) (runAll place steps)) (ends : Nat) :
    Keeps (standing ∘ Session.document) (Running.hold opened steps (ends + 1)) ∧
      Yields (fun body : Body => body.around = none) (Running.hold opened steps (ends + 1)) := by
  constructor
  · refine (openBody_opens opened).keeps fun body around held => leaves_recordEntered ?_ _
    exact leaves_tryCatch (kept body.place) (fun _ => Running.drop_leaves body held _)
      ((Running.endBody_leaves body held ends).bind fun _ => .pure _)
  · exact .bind fun body => .bind fun _ => .bind fun _ => .bind fun _ => .pure rfl

private theorem ended_keeps (view : Standing → ν) (place : Place) (start : Start)
    (attributes : List Attribute) {steps : List Step}
    (kept : ∀ place, Keeps (rules ∘ Session.document) (runAll place steps))
    (ends : Nat) {afterwards : List Step}
    (keptAfterwards : ∀ place,
      Keeps ((view ∘ standing) ∘ Session.document) (runAll place afterwards)) :
    Keeps ((view ∘ standing) ∘ Session.document)
      ((Step.held start attributes steps (ends + 1) afterwards).run place) := by
  have begun : Keeps ((view ∘ standing) ∘ Session.document) (start.begin place attributes) :=
    (start.begin_keeps place attributes).mono view
  rw [run_held]
  refine Running.recorded_keeps _ (.bind begun fun opened => ?_)
  obtain ⟨held, yields⟩ := hold_keeps opened kept ends
  refine (held.mono view).bind_of_yields yields fun body ended => ?_
  have dropped (unwinding : Bool) : Keeps ((view ∘ standing) ∘ Session.document)
      (Running.drop body unwinding) := (Running.drop_keeps body ended unwinding).mono view
  exact .bind (.tryCatch (keptAfterwards body.place) fun _ => .bind (dropped _) fun _ => .throw _)
    fun _ => .bind (dropped false) fun _ => .pure _

mutual

theorem Step.run_keeps (place : Place) (step : Step) :
    Keeps (rules ∘ Session.document) (step.run place) :=
  match step with
  | .write call => by
    rw [Step.run]
    exact Running.recorded_keeps _ (.bind
      (keeps_lift ((call.perform_keeps place).mono Standing.toRules)) fun _ => .pure _)
  | .adjust change => by
    rw [Step.run]
    exact Running.recorded_keeps _ (.bind (keeps_lift change.perform_keeps) fun _ => .pure _)
  | .inquire question => by
    rw [Step.run]
    exact Running.recorded_keeps _ (.bind .get fun _ => .pure _)
  | .detach => by
    rw [Step.run]
    exact Running.recorded_keeps _ (.bind
      (keeps_lift (detach_keeps.mono Standing.toRules)) fun _ => Running.collect_keeps _)
  | .replaceSink sink => by
    rw [Step.run]
    exact Running.recorded_keeps _ (.bind
      (keeps_lift ((replaceSink_keeps sink).mono Standing.toRules)) fun _ =>
        Running.collect_keeps _)
  | .fail message => by
    rw [Step.run]
    exact Running.recorded_keeps _ (.throw _)
  | .panic message => by
    rw [Step.run]
    exact .throw _
  | .leaf start attributes ending => by
    rw [Step.run]
    exact Running.recorded_keeps _ (.bind ((start.begin_keeps place attributes).mono Standing.toRules)
      fun opened => .bind (keeps_lift ((ending.finish_keeps opened).mono Standing.toRules))
        fun _ => .pure _)
  | .body start attributes keepsErrors steps =>
    (body_keeps place start attributes keepsErrors fun inside => runAll_keeps inside steps).mono
      Standing.toRules
  | .held start attributes steps 0 afterwards =>
    (dropped_keeps place start attributes (fun inside => runAll_keeps inside steps)
      fun inside => runAll_keeps inside afterwards).mono Standing.toRules
  | .held start attributes steps (ends + 1) afterwards =>
    ended_keeps Standing.toRules place start attributes
      (fun inside => runAll_keeps inside steps) ends fun inside => runAll_keeps inside afterwards
  | .chain tags steps => by
    rw [Step.run]
    exact Running.recorded_keeps _ (.bind
      (nested_keeps place tags fun inside => runAll_keeps inside steps) fun _ => .pure _)
  | .top steps => by
    rw [Step.run]
    exact Running.recorded_keeps _ (.bind (runAll_keeps .document steps) fun _ => .pure _)
  | .catchPanic steps => by
    rw [Step.run]
    refine Running.recorded_keeps _ (.tryCatch
      (.bind (runAll_keeps place steps) fun _ => .pure _) fun stop => ?_)
    split
    · exact .pure _
    · exact .throw _
  | .attempt step => by
    rw [Step.run]
    refine .tryCatch (step.run_keeps place) fun stop => ?_
    cases stop with
    | failure failure => exact .pure _
    | panic message => exact .throw _
termination_by structural step

theorem runAll_keeps (place : Place) (steps : List Step) :
    Keeps (rules ∘ Session.document) (runAll place steps) :=
  match steps with
  | [] => by
    rw [runAll]
    exact .pure ()
  | step :: rest => by
    rw [runAll]
    exact .bind (step.run_keeps place) fun _ => runAll_keeps place rest
termination_by structural steps

end

private theorem run_abandon (body : Body) (session : Session) :
    ∃ ended : Session, (liftM body.abandon : Running Unit).run session = .ok () ended ∧
      ended.output = session.output := by
  cases held : body.around with
  | none =>
    refine ⟨session, ?_, rfl⟩
    rw [run_lift, Body.abandon, held]
    rfl
  | some around =>
    refine ⟨{ session with document := finalState (leave around) session.document }, ?_, rfl⟩
    rw [run_lift, Body.abandon, held]
    rfl

private theorem writeBody_passes {opened : StartTag} {content : Place → Running Unit}
    {session entered stopped : Session} {body : Body} {stop : Stop}
    (opens : (liftM opened.openBody : Running Body).run session = .ok body entered)
    (stops : (content body.place).run entered = .error stop stopped) :
    ∃ ended, (opened.writeBody (ε := Stop) content).run session = .error stop ended ∧
      ended.output = stopped.output := by
  obtain ⟨ended, abandoned, same⟩ := run_abandon body stopped
  refine ⟨ended, ?_, same⟩
  have passed : (tryCatch (content body.place) fun failure => do
      liftM body.abandon
      throw failure : Running Unit).run entered = .error stop ended := by
    rw [Action.run_tryCatch, stops]
    simp only [Action.run_bind, abandoned]
    rfl
  change (liftM opened.openBody >>= fun body => (tryCatch (content body.place) fun failure => do
      liftM body.abandon
      throw failure : Running Unit) >>= fun _ => liftM body.close).run session = _
  simp only [Action.run_bind, opens, passed]

private theorem holding_passes_panic {body : Body} {steps : Running Unit}
    {session stopped : Session}
    {message : String} (stops : steps.run session = .error (.panic message) stopped) :
    ∃ ended, (Running.holding body steps).run session = .error (.panic message) ended ∧
      ended.output = stopped.output := by
  obtain ⟨ended, abandoned, same⟩ := run_abandon body stopped
  refine ⟨ended, ?_, same⟩
  rw [Running.holding, Action.run_tryCatch, stops]
  simp only [Running.drop, if_true, Action.run_bind, abandoned]
  rfl

/-- A body puts back what stood before its element's start tag, over every sink and
whatever was done in it: settings and exclusions are the same again when the body was
written by content that succeeded, failed or unwound, when it was dropped, and when it was
requested to end; also when it could not be opened. Content that stops passes on why, and
nothing is written after it. -/
theorem body_puts_back (place : Place) (start : Start) (attributes : List Attribute)
    (steps : List Step) (session : Session) :
    (∀ keepsErrors, (session.after
      ((Step.body start attributes keepsErrors steps).run place)).document.standing =
        session.document.standing) ∧
    (∀ afterwards, (session.after
      ((Step.held start attributes steps 0 afterwards).run place)).document.standing =
        session.document.standing) ∧
    (∀ ends, (session.after
      ((Step.held start attributes steps (ends + 1) []).run place)).document.standing =
        session.document.standing) ∧
    (∀ (opened : StartTag) (document final : Document) (error : Error),
      opened.openBody.run document = .error error final → final.standing = document.standing) ∧
    (∀ (opened : StartTag) (content : Place → Running Unit) (entered stopped : Session)
      (body : Body) (stop : Stop),
      (liftM opened.openBody : Running Body).run session = .ok body entered →
      (content body.place).run entered = .error stop stopped →
      ∃ ended, (opened.writeBody (ε := Stop) content).run session = .error stop ended ∧
        ended.output = stopped.output) ∧
    (∀ (body : Body) (stopped : Session) (message : String),
      (runAll place steps).run session = .error (.panic message) stopped →
      ∃ ended, (Running.holding body (runAll place steps)).run session =
          .error (.panic message) ended ∧
        ended.output = stopped.output) := by
  have kept (inside : Place) := runAll_keeps inside steps
  have nothing (inside : Place) : Keeps ((id ∘ standing) ∘ Session.document) (runAll inside []) := by
    rw [runAll]
    exact .pure ()
  refine ⟨fun keepsErrors => ?_, fun afterwards => ?_, fun ends => ?_, ?_, ?_, ?_⟩
  · rw [after_eq_finalState]
    exact body_keeps place start attributes keepsErrors kept session
  · rw [after_eq_finalState]
    exact dropped_keeps place start attributes kept (fun inside => runAll_keeps inside afterwards)
      session
  · rw [after_eq_finalState]
    exact ended_keeps id place start attributes kept ends nothing session
  · intro opened document final error failed
    have opens := opened.openBody_opens document
    rw [failed] at opens
    exact opens
  · exact fun _ _ _ _ _ _ opens stops => writeBody_passes opens stops
  · exact fun _ _ _ stops => holding_passes_panic stops

/-- For instance, content that changes the settings, writes text and then fails. -/
theorem division_passes_failure :
    ∃ ended, ((⟨.div, .anything, []⟩ : StartTag).writeBody (ε := Stop) fun inside =>
        runAll inside [.adjust (.indent false), .write (.text "so far"), .fail "no more"]).run
          (.start (.start {} .pretty .markup)) = .error (.failure (.user "no more")) ended ∧
      ended.output = ">\nso far".toUTF8.data.toList := by
  obtain ⟨ended, failed, same⟩ :=
    (body_puts_back .document (.here .div) [] []
      (.start (.start {} .pretty .markup))).2.2.2.2.1 ⟨.div, .anything, []⟩
        (fun inside => runAll inside
          [.adjust (.indent false), .write (.text "so far"), .fail "no more"]) _ _ _ _ rfl rfl
  refine ⟨ended, failed, ?_⟩
  rw [same]
  decide +kernel

end HtmlWriter.Script

import HtmlWriter.Proofs.Calls

/-! Scripts make calls. Whatever a script does to a document, a caller can do by calls, one
after the other, and has the same in hand afterwards. So what holds after every run of calls
holds of the document after every script. -/

namespace HtmlWriter
open Script Writing
variable {ε σ α β : Type}

/-- Some calls lead from one caller to the other. -/
def Caller.Reaches (caller next : Caller) : Prop :=
  ∃ calls answers, caller.run calls = some (answers, next)

namespace Caller.Reaches
variable {caller middle next : Caller}

theorem refl (caller : Caller) : caller.Reaches caller := ⟨[], [], rfl⟩

private theorem of_takes {call : Call} {heard : Except Error Unit}
    (takes : caller.Takes call heard middle) (rest : middle.Reaches next) :
    caller.Reaches next := by
  obtain ⟨calls, answers, ran⟩ := rest
  refine ⟨call :: calls, heard :: answers, ?_⟩
  rw [run, step_of_takes takes]
  simp only [ran, Option.map_some]

theorem trans (first : caller.Reaches middle) (rest : middle.Reaches next) :
    caller.Reaches next := by
  obtain ⟨calls, answers, ran⟩ := first
  induction calls generalizing caller answers with
  | nil =>
    cases ran
    exact rest
  | cons call calls ih =>
    obtain ⟨heard, second, later, stepped, continued, -⟩ := run_cons ran
    exact .of_takes (takes_of_step stepped) (ih later continued)

end Caller.Reaches

/-- What an action does to a document can be done by calls, with these handles at first and
those at last, whether the action succeeds or fails. The document may be a part of the
state. -/
def ByCalls (document : σ → Document) (first last : List Handle) (action : Action ε σ α) :
    Prop :=
  ∀ (caller : Caller) state, caller.document = document state → caller.handles = first →
    ∃ next : Caller, caller.Reaches next ∧
      next.document = document (finalState action state) ∧ next.handles = last

/-- Writing as a part of running something larger. -/
def Lifts (document : σ → Document) (writing : Writing α) (action : Action ε σ α) : Prop :=
  ∀ state, match action.run state with
    | .ok value final => writing.run (document state) = .ok value (document final)
    | .error _ final => ∃ error, writing.run (document state) = .error error (document final)

theorem Lifts.refl (writing : Writing α) : Lifts id writing writing := by
  intro state
  cases ran : writing.run state with
  | ok value final => exact ran
  | error error final => exact ⟨error, ran⟩

theorem Lifts.running (writing : Writing α) :
    Lifts Session.document writing (liftM writing : Running α) := by
  intro session
  rw [run_lift]
  cases writing.run session.document with
  | ok value final => rfl
  | error error final => exact ⟨error, rfl⟩

theorem Lifts.finalState {document : σ → Document} {writing : Writing α}
    {action : Action ε σ α} (lifts : Lifts document writing action) (state : σ) :
    document (finalState action state) = HtmlWriter.finalState writing (document state) := by
  have run := lifts state
  rw [HtmlWriter.finalState, HtmlWriter.finalState]
  cases ran : action.run state with
  | ok value final =>
    rw [ran] at run
    rw [run]
  | error error final =>
    rw [ran] at run
    obtain ⟨other, run⟩ := run
    rw [run]

namespace ByCalls
variable {document : σ → Document} {first middle last handles outer : List Handle}

theorem of_keeps {action : Action ε σ α} (kept : Keeps (id ∘ document) action) :
    ByCalls document handles handles action :=
  fun caller state here held => ⟨caller, .refl caller, here.trans (kept state).symm, held⟩

theorem pure (value : α) : ByCalls document handles handles (pure value : Action ε σ α) :=
  .of_keeps (.pure value)

theorem throw (error : ε) : ByCalls document handles handles (throw error : Action ε σ α) :=
  .of_keeps (.throw error)

/-- A failure has to be dealt with by calls too, if what is in hand is to be let go. -/
private theorem bind_of_fails {action : Action ε σ α} {next : α → Action ε σ β}
    (started : ByCalls document first middle action)
    (fails : ∀ error, ByCalls document middle last (throwThe ε error : Action ε σ β))
    (rest : ∀ value, ByCalls document middle last (next value)) :
    ByCalls document first last (action >>= next) := by
  intro caller state here held
  obtain ⟨reached, reaches, same, front⟩ := started caller state here held
  rw [finalState] at same
  cases ran : action.run state with
  | ok value final =>
    rw [ran] at same
    obtain ⟨ended, later, result⟩ := rest value reached final same front
    rw [finalState_bind_ok ran]
    exact ⟨ended, reaches.trans later, result⟩
  | error error final =>
    rw [ran] at same
    obtain ⟨ended, later, result⟩ := fails error reached final same front
    rw [finalState_bind_error ran]
    exact ⟨ended, reaches.trans later, result⟩

theorem bind {action : Action ε σ α} {next : α → Action ε σ β}
    (started : ByCalls document first last action)
    (rest : ∀ value, ByCalls document last last (next value)) :
    ByCalls document first last (action >>= next) :=
  started.bind_of_fails (fun error => .throw error) rest

theorem tryCatch {action : Action ε σ α} {handler : ε → Action ε σ α}
    (tried : ByCalls document first last action)
    (handled : ∀ error, ByCalls document last last (handler error)) :
    ByCalls document first last (tryCatch action handler) := by
  intro caller state here held
  obtain ⟨reached, reaches, same, front⟩ := tried caller state here held
  rw [finalState_tryCatch]
  rw [finalState] at same
  cases ran : action.run state with
  | ok value final =>
    rw [ran] at same
    exact ⟨reached, reaches, same, front⟩
  | error error final =>
    rw [ran] at same
    obtain ⟨ended, later, result⟩ := handled error reached final same front
    exact ⟨ended, reaches.trans later, result⟩

theorem guarded {content : Action ε σ Unit} {handler : ε → Action ε σ Unit}
    {rest : Action ε σ α} (inside : ByCalls document first middle content)
    (handled : ∀ error, ByCalls document middle last (handler error))
    (ending : ByCalls document middle last rest) :
    ByCalls document first last (do
      MonadExcept.tryCatch content fun error => do
        handler error
        MonadExcept.throw error
      rest) := by
  intro caller state here held
  obtain ⟨reached, reaches, same, front⟩ := inside caller state here held
  rw [finalState] at same
  cases ran : content.run state with
  | ok value final =>
    rw [ran] at same
    have passed := Action.run_tryCatch content (fun error => do handler error; MonadExcept.throw error)
      state
    rw [ran] at passed
    obtain ⟨ended, later, result⟩ := ending reached final same front
    rw [finalState_bind_ok passed]
    exact ⟨ended, reaches.trans later, result⟩
  | error error final =>
    rw [ran] at same
    obtain ⟨failure, passed⟩ := run_tryCatch_rethrow handler ran
    obtain ⟨ended, later, result⟩ := handled error reached final same front
    rw [finalState_bind_error passed]
    exact ⟨ended, reaches.trans later, result⟩

theorem lift {writing : Writing α} {action : Action ε σ α} (lifts : Lifts document writing action)
    (written : ByCalls id first last writing) : ByCalls document first last action := by
  intro caller state here held
  obtain ⟨next, reaches, same, front⟩ := written caller (document state) here held
  exact ⟨next, reaches, same.trans (lifts.finalState state).symm, front⟩

private theorem of_takes {writing : Writing α} {action : Action ε σ α}
    (lifts : Lifts document writing action)
    (one : ∀ caller : Caller, caller.handles = first → ∃ call heard next,
      caller.Takes call heard next ∧ next.document = HtmlWriter.finalState writing caller.document ∧
        next.handles = last) :
    ByCalls document first last action := by
  intro caller state here held
  obtain ⟨call, heard, next, takes, same, front⟩ := one caller held
  rw [here, ← lifts.finalState] at same
  exact ⟨next, .of_takes takes (.refl next), same, front⟩

private theorem bind_of_takes {writing : Writing α} {action : Action ε σ α}
    {rest : α → Action ε σ β}
    (lifts : Lifts document writing action)
    (succeeds : ∀ (caller : Caller) value final, caller.handles = first →
      writing.run caller.document = .ok value final →
      ∃ call heard next, caller.Takes call heard next ∧ next.document = final ∧
        ByCalls document next.handles last (rest value))
    (fails : ∀ (caller : Caller) error final, caller.handles = first →
      writing.run caller.document = .error error final →
      ∃ call heard next, caller.Takes call heard next ∧ next.document = final ∧
        next.handles = last) :
    ByCalls document first last (action >>= rest) := by
  intro caller state here held
  have run := lifts state
  rw [← here] at run
  cases ran : action.run state with
  | ok value final =>
    rw [ran] at run
    obtain ⟨call, heard, next, takes, same, continues⟩ := succeeds caller value _ held run
    obtain ⟨ended, later, result⟩ := continues next final same rfl
    rw [finalState_bind_ok ran]
    exact ⟨ended, .of_takes takes later, result⟩
  | error error final =>
    rw [ran] at run
    obtain ⟨other, run⟩ := run
    obtain ⟨call, heard, next, takes, same, front⟩ := fails caller other _ held run
    rw [finalState_bind_error ran]
    exact ⟨next, .of_takes takes (.refl next), same, front⟩

section
variable {place : Place} {element : Nat} {start : StartTag} {body : Body}

theorem found {caller : Caller} (here : Handle.placeIn handles = some place)
    (held : caller.handles = handles) : caller.place? = some place := by
  rw [Caller.place?, held, here]

theorem opening (here : Handle.placeIn handles = some place) {tag : Tag}
    {action : Action ε σ StartTag} {rest : StartTag → Action ε σ β}
    (lifts : Lifts document (place.element tag) action)
    (continues : ∀ element start,
      ByCalls document (.tag element start :: handles) handles (rest start)) :
    ByCalls document handles handles (action >>= rest) := by
  refine .bind_of_takes lifts (fun caller start final held ran => ?_)
    fun caller error final held ran => ?_
  · refine ⟨_, _, _, .started (found here held) ran, rfl, ?_⟩
    rw [Caller.becomes, held]
    exact continues _ start
  · exact ⟨_, _, _, .refused (found here held) ran, rfl, held⟩

theorem add {requested : Attribute} {action : Action ε σ StartTag}
    {rest : StartTag → Action ε σ β} (lifts : Lifts document (start.add requested) action)
    (continues : ∀ next, ByCalls document (.tag element next :: outer) outer (rest next)) :
    ByCalls document (.tag element start :: outer) outer (action >>= rest) :=
  .bind_of_takes lifts
    (fun _ next _ held ran => ⟨_, _, _, .added held ran, rfl, continues next⟩)
    fun _ _ _ held ran => ⟨_, _, _, .rejected held ran, rfl, rfl⟩

theorem finish {ending : Ending} {action : Action ε σ Unit}
    (lifts : Lifts document (ending.finish start) action) :
    ByCalls document (.tag element start :: outer) outer action :=
  .of_takes lifts fun _ held => ⟨_, _, _, .finish held ending, rfl, rfl⟩

theorem openBody {action : Action ε σ Body} {rest : Body → Action ε σ β}
    (lifts : Lifts document start.openBody action)
    (continues : ∀ body, ByCalls document (.body element body :: outer) outer (rest body)) :
    ByCalls document (.tag element start :: outer) outer (action >>= rest) :=
  .bind_of_takes lifts
    (fun _ body _ held ran => ⟨_, _, _, .opened held ran, rfl, continues body⟩)
    fun _ _ _ held ran => ⟨_, _, _, .unopened held ran, rfl, rfl⟩

theorem close {action : Action ε σ Unit} (lifts : Lifts document body.close action) :
    ByCalls document (.body element body :: outer) (.body element body.ended :: outer) action :=
  .of_takes lifts fun _ held => ⟨_, _, _, .endBody held, rfl, rfl⟩

theorem dropBody {action : Action ε σ Unit} (lifts : Lifts document body.close action) :
    ByCalls document (.body element body :: outer) outer action :=
  .of_takes lifts fun _ held => ⟨_, _, _, .dropBody held, rfl, rfl⟩

theorem abandon {action : Action ε σ Unit} (lifts : Lifts document body.abandon action) :
    ByCalls document (.body element body :: outer) outer action :=
  .of_takes lifts fun _ held => ⟨_, _, _, .abandon held, rfl, rfl⟩

/-- What is done at the top level can be done from anywhere that can be written to. -/
theorem top {action : Action ε σ α} (here : Handle.placeIn handles = some place)
    (inside : ByCalls document (.top :: handles) (.top :: handles) action) :
    ByCalls document handles handles action := by
  intro caller state same held
  let higher := caller.becomes caller.document (.top :: caller.handles) []
  have front : higher.handles = .top :: handles := congrArg (Handle.top :: ·) held
  obtain ⟨reached, reaches, written, front⟩ := inside higher state same front
  have lower := reaches.trans (.of_takes (.dropTop front) (.refl _))
  exact ⟨_, .of_takes (.top (found here held)) lower, written, rfl⟩

theorem adjust (here : Handle.placeIn handles = some place) (change : Adjustment)
    {action : Action ε σ Unit} (lifts : Lifts document change.perform action) :
    ByCalls document handles handles action :=
  .of_takes lifts fun _ held => ⟨_, _, _, .adjust (found here held) change, rfl, held⟩

theorem detach (here : Handle.placeIn handles = some place)
    {action : Action ε σ (Option Sink)} (lifts : Lifts document Writing.detach action) :
    ByCalls document handles handles action :=
  .of_takes lifts fun _ held => ⟨_, _, _, .detach (found here held), rfl, held⟩

theorem replaceSink (here : Handle.placeIn handles = some place) (sink : Sink)
    {action : Action ε σ (Option Sink)}
    (lifts : Lifts document (Writing.replaceSink sink) action) :
    ByCalls document handles handles action :=
  .of_takes lifts fun _ held => ⟨_, _, _, .replaceSink (found here held) sink, rfl, held⟩

theorem write (here : Handle.placeIn handles = some place) (call : WriteCall)
    (single : call.isSingle) {action : Action ε σ Unit}
    (lifts : Lifts document (call.perform place) action) :
    ByCalls document handles handles action :=
  .of_takes lifts fun _ held => ⟨_, _, _, .write (found here held) single, rfl, held⟩

end
end ByCalls

theorem StartTag.addAll_byCalls {element : Nat} {outer : List Handle} (start : StartTag)
    (requested : List Attribute) {rest : StartTag → Writing α}
    (continues : ∀ next, ByCalls id (.tag element next :: outer) outer (rest next)) :
    ByCalls id (.tag element start :: outer) outer (start.addAll requested >>= rest) := by
  induction requested generalizing start with
  | nil => exact continues start
  | cons asked others ih =>
    rw [addAll, List.foldlM_cons, bind_assoc]
    exact .add (.refl _) fun next => ih next

theorem StartTag.writeChildren_byCalls {element : Nat} {outer : List Handle} (start : StartTag)
    {children : List Node}
    (inside : ∀ place handles, Handle.placeIn handles = some place →
      ByCalls id handles handles (Node.writeAll place children)) :
    ByCalls id (.tag element start :: outer) outer (start.writeChildren children) := by
  unfold writeChildren
  split
  · exact .finish (Lifts.refl (Ending.close.finish start))
  · exact .finish (Lifts.refl ((Ending.text _).finish start))
  · exact .openBody (.refl _) fun body => .guarded (inside body.place _ rfl)
      (fun _ => .abandon (.refl _)) (.dropBody (.refl _))

mutual

theorem Node.write_byCalls (place : Place) (node : Node) {handles : List Handle}
    (here : Handle.placeIn handles = some place) :
    ByCalls id handles handles (node.write place) :=
  match node with
  | .text content => by
    rw [Node.write]
    exact .write here (.text content) rfl (.refl _)
  | .comment content => by
    rw [Node.write]
    exact .write here (.comment content) rfl (.refl _)
  | .element tag attributes children => by
    rw [Node.write_element]
    exact .opening here (.refl _) fun _ start => start.addAll_byCalls _ fun start =>
      start.writeChildren_byCalls fun inside _ held => Node.writeAll_byCalls inside children held
termination_by structural node

theorem Node.writeAll_byCalls (place : Place) (nodes : List Node) {handles : List Handle}
    (here : Handle.placeIn handles = some place) :
    ByCalls id handles handles (Node.writeAll place nodes) :=
  match nodes with
  | [] => by
    rw [Node.writeAll]
    exact .pure ()
  | node :: rest => by
    rw [Node.writeAll]
    exact .bind (Node.write_byCalls place node here) fun _ => Node.writeAll_byCalls place rest here
termination_by structural nodes

end

namespace Script
variable {handles outer : List Handle} {place : Place}

theorem record_byCalls {word : String} {failure : Option Failure} {report : Option Report}
    {withFormat : Bool} {first last : List Handle} {rest : Unit → Running α}
    (continues : ByCalls Session.document first last (rest ())) :
    ByCalls Session.document first last (Running.record word failure report withFormat >>= rest) :=
  fun caller _ here held => continues caller _ here held

theorem Running.recorded_byCalls (word : String) {step : Running (Option Report)}
    (taken : ByCalls Session.document handles handles step) :
    ByCalls Session.document handles handles (recorded word step) := by
  refine .bind (.tryCatch taken fun stop => ?_) fun report => .of_keeps (record_keeps _ _ _ _)
  cases stop with
  | failure failure => exact record_byCalls (.throw _)
  | panic message => exact .throw _

theorem Running.collect_byCalls (sink : Option Sink) :
    ByCalls Session.document handles handles (collect sink) :=
  .of_keeps (collect_keeps sink)

theorem addAttributes_byCalls {element : Nat} (start : StartTag) (requested : List Attribute)
    {rest : StartTag → Running α} (continues : ∀ next,
      ByCalls Session.document (.tag element next :: outer) outer (rest next)) :
    ByCalls Session.document (.tag element start :: outer) outer
      (addAttributes start requested >>= rest) := by
  induction requested generalizing start with
  | nil => exact continues start
  | cons asked others ih =>
    rw [addAttributes, bind_assoc]
    refine .add (.running _) fun next => ?_
    rw [bind_assoc]
    exact record_byCalls (ih next)

/-- The root element is started at the top level, from wherever that is. -/
theorem Start.begin_byCalls (here : Handle.placeIn handles = some place) (start : Start)
    (requested : List Attribute) {rest : StartTag → Running α} (continues : ∀ element opened outer,
      ByCalls Session.document (.tag element opened :: outer) outer (rest opened)) :
    ByCalls Session.document handles handles (start.begin place requested >>= rest) := by
  have goesOn (element : Nat) (opened : StartTag) (outer : List Handle) :
      ByCalls Session.document (.tag element opened :: outer) outer
        (Running.record "start" none (some (.text opened.tag.name)) false >>= fun _ =>
          addAttributes opened requested >>= rest) :=
    record_byCalls (addAttributes_byCalls opened requested fun next => continues element next outer)
  unfold begin
  simp only [bind_assoc]
  cases start with
  | here tag => exact .opening here (.running _) fun element opened => goesOn element opened _
  | root =>
    exact .top here (.opening rfl (.running _) fun element opened => goesOn element opened _)

theorem writeBody_byCalls {element : Nat} (start : StartTag) {content : Place → Running Unit}
    (inside : ∀ place handles, Handle.placeIn handles = some place →
      ByCalls Session.document handles handles (content place)) :
    ByCalls Session.document (.tag element start :: outer) outer
      (start.writeBody (ε := Stop) content) :=
  .openBody (.running _) fun body => .guarded (inside body.place _ rfl)
    (fun _ => .abandon (.running _)) (.dropBody (.running _))

theorem nested_byCalls (tags : List Tag) {content : Place → Running Unit}
    (inside : ∀ place handles, Handle.placeIn handles = some place →
      ByCalls Session.document handles handles (content place))
    (here : Handle.placeIn handles = some place) :
    ByCalls Session.document handles handles (place.nested (ε := Stop) tags content) := by
  induction tags generalizing place handles with
  | nil => exact inside place handles here
  | cons tag rest ih =>
    exact .opening here (.running _) fun _ start =>
      writeBody_byCalls start fun _ _ held => ih held

theorem Running.drop_byCalls {element : Nat} (body : Body) (unwinding : Bool) :
    ByCalls Session.document (.body element body :: outer) outer (drop body unwinding) := by
  cases unwinding with
  | true => exact .abandon (.running _)
  | false => exact .tryCatch (.dropBody (.running _)) fun _ => .pure ()

theorem Running.holding_byCalls {element : Nat} (body : Body) {steps : Running Unit}
    {rest : Running α} (inside : ByCalls Session.document (.body element body :: outer)
      (.body element body :: outer) steps)
    (continues : ByCalls Session.document (.body element body :: outer) outer rest) :
    ByCalls Session.document (.body element body :: outer) outer (do holding body steps; rest) :=
  .guarded inside (fun _ => drop_byCalls body _) continues

theorem Running.requestEnd_byCalls {element : Nat} (body : Body) :
    ByCalls Session.document (.body element body :: outer) (.body element body.ended :: outer)
      (requestEnd body) := by
  intro caller session here held
  rw [finalState_requestEnd]
  exact ByCalls.close (.running _) caller session here held

theorem Running.endBody_byCalls {element : Nat} (body : Body) (times : Nat) :
    ByCalls Session.document (.body element body :: outer)
      (.body element (if times = 0 then body else body.ended) :: outer) (endBody body times) := by
  induction times generalizing body with
  | zero => exact .pure ()
  | succ times ih =>
    have again : ByCalls Session.document (.body element body.ended :: outer)
        (.body element body.ended :: outer) (endBody body.ended times) := by
      have same : (if times = 0 then body.ended else body.ended.ended) = body.ended := ite_self _
      have requested := @ih body.ended
      rwa [same] at requested
    rw [if_neg (Nat.succ_ne_zero times)]
    refine (requestEnd_byCalls body).bind fun stopped => record_byCalls (again.bind fun _ => ?_)
    cases stopped with
    | some stop => exact .throw stop
    | none => exact .pure ()

private theorem drop_ended_byCalls {element : Nat} (body : Body) (stop : Stop) :
    ByCalls Session.document (.body element body.ended :: outer) outer
      (throw stop : Running α) := by
  intro caller session here held
  have dropped : ByCalls Session.document (.body element body.ended :: outer) outer
    (liftM body.ended.close : Running Unit) := .dropBody (.running _)
  have same : finalState (liftM body.ended.close : Running Unit) session = session := by
    rw [finalState_lift]
    rfl
  have reached := dropped caller session here held
  rwa [same] at reached

theorem WriteCall.perform_byCalls (here : Handle.placeIn handles = some place) (call : WriteCall) :
    ByCalls Session.document handles handles (liftM (call.perform place) : Running Unit) := by
  cases call with
  | node tree => exact .lift (.running _) (tree.write_byCalls place here)
  | _ => exact .write here _ rfl (.running _)

theorem Step.held_byCalls (here : Handle.placeIn handles = some place) (start : Start)
    (requested : List Attribute) {steps : List Step} (ends : Nat) {afterwards : List Step}
    (inside : ∀ place handles, Handle.placeIn handles = some place →
      ByCalls Session.document handles handles (runAll place steps))
    (insideAfterwards : ∀ place handles, Handle.placeIn handles = some place →
      ByCalls Session.document handles handles (runAll place afterwards)) :
    ByCalls Session.document handles handles
      ((Step.held start requested steps ends afterwards).run place) := by
  rw [Step.run]
  refine Running.recorded_byCalls _ (start.begin_byCalls here requested fun element opened outer =>
    .openBody (.running _) fun body => record_byCalls ?_)
  refine Running.holding_byCalls body (inside body.place _ rfl) ?_
  have rest (last : Body) (same : last.place = body.place) :
      ByCalls Session.document (.body element last :: outer) outer (do
        Running.holding last (runAll last.place afterwards)
        Running.drop last false
        return none : Running (Option Report)) :=
    Running.holding_byCalls last (insideAfterwards last.place _ rfl)
      ((Running.drop_byCalls last false).bind fun _ => .pure _)
  cases ends with
  | zero => exact rest body rfl
  | succ times =>
    refine (Running.endBody_byCalls body (times + 1)).bind_of_fails ?_ fun _ => ?_
    · exact fun stop => drop_ended_byCalls body stop
    · exact rest body.ended rfl

mutual

theorem Step.run_byCalls (place : Place) (step : Step) {handles : List Handle}
    (here : Handle.placeIn handles = some place) :
    ByCalls Session.document handles handles (step.run place) :=
  match step with
  | .write call => by
    rw [Step.run]
    exact Running.recorded_byCalls _ (.bind (call.perform_byCalls here) fun _ => .pure _)
  | .adjust change => by
    rw [Step.run]
    exact Running.recorded_byCalls _ (.bind (.adjust here change (.running _)) fun _ => .pure _)
  | .inquire question => by
    rw [Step.run]
    exact Running.recorded_byCalls _ (.bind (.of_keeps .get) fun _ => .pure _)
  | .detach => by
    rw [Step.run]
    exact Running.recorded_byCalls _ (.bind (.detach here (.running _)) Running.collect_byCalls)
  | .replaceSink sink => by
    rw [Step.run]
    exact Running.recorded_byCalls _ (.bind (.replaceSink here sink (.running _))
      Running.collect_byCalls)
  | .fail message => by
    rw [Step.run]
    exact Running.recorded_byCalls _ (.throw _)
  | .panic message => by
    rw [Step.run]
    exact .throw _
  | .leaf start requested ending => by
    rw [Step.run]
    exact Running.recorded_byCalls _ (start.begin_byCalls here requested fun _ opened _ =>
      .bind (.finish (.running (ending.finish opened))) fun _ => .pure _)
  | .body start requested keepsErrors steps => by
    rw [Step.run]
    refine Running.recorded_byCalls _ (start.begin_byCalls here requested fun _ opened _ =>
      .bind (writeBody_byCalls opened fun inside _ held => record_byCalls ?_) fun _ => .pure _)
    have written := runAll_byCalls inside steps held
    cases keepsErrors with
    | true => exact written
    | false =>
      refine .tryCatch written fun stop => ?_
      split <;> exact .throw _
  | .held start requested steps ends afterwards =>
    Step.held_byCalls here start requested ends
      (fun inside _ held => runAll_byCalls inside steps held)
      fun inside _ held => runAll_byCalls inside afterwards held
  | .chain tags steps => by
    rw [Step.run]
    exact Running.recorded_byCalls _ (.bind (nested_byCalls tags
      (fun inside _ held => runAll_byCalls inside steps held) here) fun _ => .pure _)
  | .top steps => by
    rw [Step.run]
    exact Running.recorded_byCalls _ (.bind
      (.top here (runAll_byCalls .document steps rfl)) fun _ => .pure _)
  | .catchPanic steps => by
    rw [Step.run]
    refine Running.recorded_byCalls _ (.tryCatch
      (.bind (runAll_byCalls place steps here) fun _ => .pure _) fun stop => ?_)
    split
    · exact .pure _
    · exact .throw _
  | .attempt step => by
    rw [Step.run]
    refine .tryCatch (step.run_byCalls place here) fun stop => ?_
    cases stop with
    | failure failure => exact .pure _
    | panic message => exact .throw _
termination_by structural step

theorem runAll_byCalls (place : Place) (steps : List Step) {handles : List Handle}
    (here : Handle.placeIn handles = some place) :
    ByCalls Session.document handles handles (runAll place steps) :=
  match steps with
  | [] => by
    rw [runAll]
    exact .pure ()
  | step :: rest => by
    rw [runAll]
    exact .bind (step.run_byCalls place here) fun _ => runAll_byCalls place rest here
termination_by structural steps

end

/-- The document after a script is one that calls lead to, and with nothing in hand. -/
theorem reached_by_calls (sink : Sink) (parameters : Parameters) (encoder : Encoder)
    (steps : List Step) : ∃ calls answers caller,
      (Caller.start sink parameters encoder).run calls = some (answers, caller) ∧
        caller.handles = [] ∧ caller.document = ((Session.start (.start sink parameters
          encoder)).after (runAll .document steps)).document := by
  obtain ⟨caller, ⟨calls, answers, ran⟩, same, released⟩ :=
    @runAll_byCalls .document steps [] rfl (.start sink parameters encoder)
      (.start (.start sink parameters encoder)) rfl rfl
  rw [← after_eq_finalState] at same
  exact ⟨calls, answers, caller, ran, released, same⟩

end Script
end HtmlWriter

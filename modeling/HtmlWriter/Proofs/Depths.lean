import HtmlWriter.Proofs.BreakingOff

/-! How depth is counted. Depth is kept in a machine word, which callers can set to any value. What
lessens it and what indents by it stays within the range of the word. What increases it would count
beyond the largest depth, so there, and nowhere else, a call that changes the depth breaks off. A
caller that sets no great depths does not get there. -/

namespace HtmlWriter
open Script Document Writing

namespace Depth

def largest : Nat := UInt64.size - 1

/-- The depth that is nearest to a level. -/
def nearest (level : Int) : Int := max 0 (min level largest)

private theorem largest_eq : largest = 18446744073709551615 := rfl

private theorem toNat_le_largest (depth : UInt64) : depth.toNat ≤ largest :=
  Nat.le_pred_of_lt depth.toNat_lt_size

end Depth

inductive DepthChange
  | stays
  | deepens
  | lessens
  | becomes (depth : UInt64)
deriving DecidableEq

/-- The depth after a change, as it is counted within the range of depths. -/
def DepthChange.counted (depth : Int) : DepthChange → Int
  | stays => depth
  | deepens => Depth.nearest (depth + 1)
  | lessens => Depth.nearest (depth - 1)
  | becomes depth => depth.toNat

private theorem DepthChange.counted_le {depth level : Nat} {change : DepthChange}
    (within : depth ≤ level)
    (set : ∀ other, change = becomes other → other.toNat ≤ level) :
    change.counted depth ≤ level + 1 := by
  cases change with
  | stays => exact Int.le_add_one (Int.ofNat_le.mpr within)
  | deepens | lessens =>
    rw [counted, Depth.nearest]
    omega
  | becomes other => exact Int.le_add_one (Int.ofNat_le.mpr (set other rfl))

namespace FormatSettings

theorem depth_deeper (settings : FormatSettings) :
    (settings.deeper.depth.toNat : Int) = Depth.nearest (settings.depth.toNat + 1) := by
  have most : largestDepth.toNat = Depth.largest := rfl
  rw [toNat_depth_deeper, Depth.nearest, most]
  omega

private theorem depth_shallower (settings : FormatSettings) :
    (settings.shallower.depth.toNat : Int) = Depth.nearest (settings.depth.toNat - 1) := by
  have bound := Depth.toNat_le_largest settings.depth
  have less : settings.shallower.depth.toNat = settings.depth.toNat - 1 := by
    rw [shallower]
    dsimp only
    split
    next none =>
      rw [none]
      rfl
    next some =>
      have positive : (1 : UInt64) ≤ settings.depth := by
        apply UInt64.le_iff_toNat_le.mpr
        apply Nat.pos_of_ne_zero
        exact fun zero => some (UInt64.toNat_inj.mp zero)
      rw [UInt64.toNat_sub_of_le _ _ positive, UInt64.toNat_one]
  rw [less, Depth.nearest]
  omega

private theorem canDeepen_eq_false (settings : FormatSettings) :
    settings.canDeepen = false ↔ settings.depth.toNat = Depth.largest := by
  rw [canDeepen, bne_eq_false_iff_eq, ← UInt64.toNat_inj]
  rfl

end FormatSettings

theorem Format.indentation_eq_nearest (format : Format) (offset : Int64) :
    (format.indentation offset : Int) = Depth.nearest (format.depth.toNat + offset.toInt) := by
  rw [indentation, Depth.nearest, Depth.largest_eq]
  have size : UInt64.size - 1 = 18446744073709551615 := rfl
  rw [size]
  simp only [Int.ofNat_eq_natCast]
  omega

def Layout.depthChange : Layout → DepthChange
  | block => .deepens
  | verbatim => .becomes 0
  | root | inline | lineBreak => .stays

def Script.Adjustment.depthChange : Adjustment → DepthChange
  | depth value => .becomes value
  | deeper => .deepens
  | shallower => .lessens
  | autoNewline _ | indent _ => .stays

/-- The depth around a body is put back when the body is left, once. -/
def Body.depthChange (body : Body) : DepthChange :=
  match body.around with
  | some around => .becomes around.settings.depth
  | none => .stays

private theorem FormatSettings.depth_within (settings : FormatSettings) (layout : Layout) :
    ((settings.within layout).depth.toNat : Int) =
      layout.depthChange.counted settings.depth.toNat := by
  cases layout with
  | block => exact settings.depth_deeper
  | verbatim | root | inline | lineBreak => rfl

theorem Script.Adjustment.depth_apply (change : Adjustment) (settings : FormatSettings) :
    ((change.apply settings).depth.toNat : Int) =
      change.depthChange.counted settings.depth.toNat := by
  cases change with
  | deeper => exact settings.depth_deeper
  | shallower => exact settings.depth_shallower
  | depth | autoNewline | indent => rfl

private theorem FormatSettings.canEnter_eq_false (settings : FormatSettings) (layout : Layout) :
    settings.canEnter layout = false ↔
      layout.depthChange = .deepens ∧ settings.depth.toNat = Depth.largest := by
  cases layout with
  | block => exact settings.canDeepen_eq_false.trans (and_iff_right rfl).symm
  | verbatim | root | inline | lineBreak => exact iff_of_false nofun fun deep => nomatch deep.1

private theorem Script.Adjustment.fits_eq_false (change : Adjustment) (settings : FormatSettings) :
    change.fits settings = false ↔
      change.depthChange = .deepens ∧ settings.depth.toNat = Depth.largest := by
  cases change with
  | deeper => exact settings.canDeepen_eq_false.trans (and_iff_right rfl).symm
  | depth | shallower | autoNewline | indent => exact iff_of_false nofun fun deep => nomatch deep.1

namespace Handle

def entering : List Handle → DepthChange
  | .tag _ start :: _ => start.tag.definition.layout.depthChange
  | .top :: _ | .body _ _ :: _ | [] => .stays

/-- Of the bodies, a verbatim one alone has a depth of its own. -/
private theorem eq_zero_of_entering {handles : List Handle} {other : UInt64}
    (change : entering handles = .becomes other) : other = 0 := by
  unfold entering Layout.depthChange at change
  split at change
  next =>
    split at change <;> cases change
    rfl
  all_goals cases change

def leaving : List Handle → DepthChange
  | .body _ opened :: _ => opened.depthChange
  | .top :: _ | .tag _ _ :: _ | [] => .stays

end Handle

namespace Caller

def depth (caller : Caller) : UInt64 := caller.document.format.depth

def depthChange (caller : Caller) : Call → Except Error Unit → DepthChange
  | .adjust change, _ => change.depthChange
  | .openBody, .ok () => Handle.entering caller.handles
  | .endBody, _ | .drop, _ | .abandon, _ => Handle.leaving caller.handles
  | _, _ => .stays

variable {base : Rules} {caller next : Caller} {call : Call} {heard : Except Error Unit}

private theorem depth_of_same {document final : Document}
    (same : final.standing = document.standing) :
    final.format.depth = document.format.depth :=
  congrArg (fun standing => standing.settings.depth) same

private theorem counted_of_same {document final : Document}
    (same : final.standing = document.standing) :
    (final.format.depth.toNat : Int) = document.format.depth.toNat := by
  rw [depth_of_same same]

private theorem counted_of_leaves {element : Nat} {body : Body} {outer : List Handle}
    {action : Writing Unit} (follows : Follows base caller)
    (front : caller.handles = .body element body :: outer)
    (leaves : ∀ around, body.around = some around → Leaves id around action)
    (kept : body.around = none → Keeps standing action) :
    ((finalState action caller.document).format.depth.toNat : Int) =
      body.depthChange.counted caller.depth.toNat := by
  rw [Body.depthChange]
  cases held : body.around with
  | none => exact counted_of_same (kept held caller.document)
  | some around =>
    have back := leaves around held _ _ (follows.putsBack front held)
    exact congrArg (fun standing => (standing.settings.depth.toNat : Int)) back

theorem depth_of_takes (follows : Follows base caller) (takes : caller.Takes call heard next) :
    (next.depth.toNat : Int) = (caller.depthChange call heard).counted caller.depth.toNat := by
  cases takes with
  | @write place call here single =>
    exact counted_of_same (call.perform_keeps place _)
  | adjust here change => exact change.depth_apply _
  | detach here | replaceSink here | top here => rfl
  | @started place tag start document here ran =>
    exact counted_of_same ((place.element_keeps tag).of_ok ran)
  | @refused place tag error document here ran =>
    exact counted_of_same ((place.element_keeps tag).of_error ran)
  | @added element start next outer requested document front ran =>
    exact counted_of_same ((start.add_keeps requested).of_ok ran)
  | @rejected element start outer requested error document front ran =>
    exact counted_of_same ((start.add_keeps requested).of_error ran)
  | @finish element start outer front ending =>
    exact counted_of_same (ending.finish_keeps start _)
  | @opened element start outer body document front ran =>
    obtain ⟨-, begun, same, rfl, -⟩ := start.openBody_ok ran
    have depth : begun.format.depth = caller.depth := depth_of_same same
    rw [depthChange, front, ← depth]
    exact FormatSettings.depth_within _ _
  | @unopened element start outer error document front ran =>
    have kept := start.openBody_opens caller.document
    rw [ran] at kept
    exact counted_of_same kept
  | @endBody element body outer front | @dropBody element body outer front =>
    have left := counted_of_leaves follows front (fun _ => body.close_leaves) body.close_keeps
    rw [depthChange, front]
    exact left
  | dropTop front | giveUp front =>
    rw [depthChange, front]
    rfl
  | @abandon element body outer front =>
    have left := counted_of_leaves follows front (fun _ => body.abandon_leaves) body.abandon_keeps
    rw [depthChange, front]
    exact left

/-- A call would lead to a depth beyond the largest. -/
def IsTooDeep (caller : Caller) (call : Call) (heard : Except Error Unit) : Prop :=
  caller.depthChange call heard = .deepens ∧ caller.depth.toNat = Depth.largest

/-- A call would indent a line by more than there is room for. -/
def IsTooWide (next : Caller) (call : Call) : Prop :=
  ∃ offset ∈ call.indents?, longestText < next.document.format.indentation offset

theorem breaksOff_of_tooDeep (takes : caller.Takes call heard next)
    (deep : caller.IsTooDeep call heard) : caller.breaksOff call = true := by
  obtain ⟨deepens, largest⟩ := deep
  cases takes with
  | adjust here change =>
    have unfit := (change.fits_eq_false _).mpr ⟨deepens, largest⟩
    rw [breaksOff, writing, change.perform_breaksOff, unfit]
    rfl
  | @opened element start outer body document front ran =>
    rw [depthChange, front] at deepens
    have closed := (FormatSettings.canEnter_eq_false _ _).mpr ⟨deepens, largest⟩
    rw [breaksOff, writing, front]
    dsimp only
    rw [Action.breaksOff_discard, start.openBody_breaksOff, ran]
    dsimp only
    rw [closed]
    rfl
  | write | detach | replaceSink | top | started | refused | added | rejected | finish
  | unopened => cases deepens
  | @endBody element body outer front | @dropBody element body outer front
  | @abandon element body outer front =>
    rw [depthChange, front, Handle.leaving, Body.depthChange] at deepens
    split at deepens <;> cases deepens
  | dropTop front | giveUp front =>
    rw [depthChange, front] at deepens
    cases deepens

private theorem wide_of_closed {element : Nat} {body : Body} {outer : List Handle}
    (follows : Follows base caller) (front : caller.handles = .body element body :: outer)
    (off : body.close.breaksOff caller.document = true) :
    longestText < (finalState body.close caller.document).format.indentation 0 := by
  obtain ⟨around, held, wide⟩ := body.close_wide off
  have inside := follows.putsBack front held
  have closed := body.close_leaves held _ _ inside
  exact indentation_of_standing (closed.trans (leave_putsBack inside).symm) 0 ▸ wide

/-- There is no other cause for a call to break off. -/
theorem tooDeep_or_tooWide (follows : Follows base caller) (takes : caller.Takes call heard next)
    (off : caller.breaksOff call = true) : caller.IsTooDeep call heard ∨ next.IsTooWide call := by
  have wide {offset? : Option Int64} {α : Type} {action : Writing α} {final : Document}
      (indents : Indents offset? action) (same : final.standing = caller.document.standing)
      (off : action.breaksOff caller.document = true) :
      ∃ offset ∈ offset?, longestText < final.format.indentation offset := by
    obtain ⟨offset, asked, wide⟩ := indents off
    exact ⟨offset, asked, indentation_of_standing same offset ▸ wide⟩
  rw [breaksOff] at off
  cases takes with
  | @write place call here single =>
    rw [writing, here] at off
    exact .inr (wide (call.perform_indents single place) (call.perform_keeps place _) off)
  | adjust here change =>
    rw [writing, change.perform_breaksOff, Bool.not_eq_true'] at off
    exact .inl ((change.fits_eq_false _).mp off)
  | @started place tag start document here ran =>
    rw [writing, here, Action.breaksOff_discard] at off
    exact .inr (wide (place.element_indents tag) ((place.element_keeps tag).of_ok ran) off)
  | @refused place tag error document here ran =>
    rw [writing, here, Action.breaksOff_discard] at off
    exact .inr (wide (place.element_indents tag) ((place.element_keeps tag).of_error ran) off)
  | @added element start next outer requested document front ran
  | @rejected element start outer requested error document front ran =>
    rw [writing, front, Action.breaksOff_discard, (start.add_indents requested).never] at off
    cases off
  | @finish element start outer front ending =>
    rw [writing, front, (ending.finish_indents start).never] at off
    cases off
  | @opened element start outer body document front ran =>
    rw [writing, front, Action.breaksOff_discard, start.openBody_breaksOff, ran] at off
    refine .inl ?_
    rw [IsTooDeep, depthChange, front]
    exact (FormatSettings.canEnter_eq_false _ _).mp (by simpa using off)
  | @unopened element start outer error document front ran =>
    rw [writing, front, Action.breaksOff_discard, start.openBody_breaksOff, ran] at off
    cases off
  | @endBody element body outer front | @dropBody element body outer front =>
    rw [writing, front] at off
    exact .inr ⟨0, rfl, wide_of_closed follows front off⟩
  | @abandon element body outer front =>
    rw [writing, front, body.abandon_indents.never] at off
    cases off
  | dropTop front | giveUp front =>
    rw [writing, front] at off
    cases off
  | detach | replaceSink | top => cases off

/-- The depth, and every depth that is put back when a body is left, lies within a bound. -/
structure Within (level : Nat) (caller : Caller) : Prop where
  depth : caller.depth.toNat ≤ level
  saved : ∀ element body, .body element body ∈ caller.handles → ∀ around ∈ body.around,
    around.settings.depth.toNat ≤ level

theorem Within.leaving {level : Nat} {other : UInt64} (within : Within level caller)
    (change : Handle.leaving caller.handles = .becomes other) : other.toNat ≤ level := by
  unfold Handle.leaving Body.depthChange at change
  split at change
  next element body outer front =>
    split at change
    next around held =>
      cases change
      exact within.saved element body (front ▸ .head _) around held
    next => cases change
  all_goals cases change

/-- A depth that takes the place of another was set, was saved, or is none. -/
theorem Within.becomes {level : Nat} {other : UInt64} (within : Within level caller)
    (set : ∀ value, call = .adjust (.depth value) → value.toNat ≤ level)
    (change : caller.depthChange call heard = .becomes other) : other.toNat ≤ level := by
  cases call with
  | adjust adjusted =>
    cases adjusted with
    | depth value =>
      cases change
      exact set _ rfl
    | autoNewline | indent | deeper | shallower => cases change
  | openBody =>
    cases heard with
    | error error => cases change
    | ok heard =>
      have none : other = 0 := Handle.eq_zero_of_entering change
      rw [none]
      exact Nat.zero_le level
  | endBody | drop | abandon => exact within.leaving change
  | write | detach | replaceSink | top | start | add | finish => cases change

/-- A call may lead one level deeper than the calls before it. -/
theorem Within.step {level : Nat} (within : Within level caller) (follows : Follows base caller)
    (takes : caller.Takes call heard next)
    (set : ∀ value, call = .adjust (.depth value) → value.toNat ≤ level) :
    Within (level + 1) next := by
  have depth : next.depth.toNat ≤ level + 1 := by
    have counted := depth_of_takes follows takes
    have bound : (caller.depthChange call heard).counted caller.depth.toNat ≤ level + 1 :=
      DepthChange.counted_le within.depth fun other => within.becomes set
    omega
  refine ⟨depth, ?_⟩
  have kept {outer : List Handle} (held : ∀ handle ∈ outer, handle ∈ caller.handles) :
      ∀ element body, .body element body ∈ outer → ∀ around ∈ body.around,
        around.settings.depth.toNat ≤ level + 1 :=
    fun element body member around present =>
      Nat.le_succ_of_le (within.saved element body (held _ member) around present)
  have behind {handle : Handle} {outer : List Handle} (front : caller.handles = handle :: outer) :
      ∀ other ∈ outer, other ∈ caller.handles := fun other member => front ▸ .tail _ member
  cases takes with
  | write here | adjust here | detach here | replaceSink here | refused here =>
    exact kept fun _ member => member
  | rejected front | finish front | unopened front | dropBody front | dropTop front | giveUp front
  | abandon front => exact kept (behind front)
  | top here | started here =>
    rintro element body (_ | ⟨_, member⟩)
    exact kept (fun _ member => member) element body member
  | added front =>
    rintro element body (_ | ⟨_, member⟩)
    exact kept (behind front) element body member
  | @opened element start outer body document front ran =>
    rintro other opened (_ | ⟨_, member⟩)
    · -- The depth that is saved is the one from before the body.
      obtain ⟨-, begun, same, -, rfl⟩ := start.openBody_ok ran
      rintro around ⟨⟩
      have before : begun.format.depth = caller.depth := depth_of_same same
      exact before ▸ Nat.le_succ_of_le within.depth
    · exact kept (behind front) other opened member
  | endBody front =>
    rintro element body (_ | ⟨_, member⟩)
    · nofun
    · exact kept (behind front) element body member

/-- A run leads no deeper than one level for each call below the deepest it sets. -/
theorem Within.run {level : Nat} {calls : List Call} {answers : List (Except Error Unit)}
    {final : Caller} (ran : caller.run calls = some (answers, final))
    (follows : Follows base caller) (within : Within level caller)
    (set : ∀ value, .adjust (.depth value) ∈ calls → value.toNat ≤ level) :
    Within (level + calls.length) final := by
  induction calls generalizing caller level answers with
  | nil =>
    cases ran
    exact within
  | cons call rest ih =>
    obtain ⟨heard, next, later, stepped, continued, rfl⟩ := run_cons ran
    have takes := takes_of_step stepped
    have deeper := within.step follows takes fun value same => set value (same ▸ .head _)
    have final := ih continued (follows_of_takes follows takes) deeper fun value member =>
      Nat.le_succ_of_le (set value (.tail _ member))
    rw [List.length_cons]
    have sum : level + 1 + rest.length = level + (rest.length + 1) := by omega
    exact sum ▸ final

private theorem within_start (level : Nat) {sink : Sink} {parameters : Parameters}
    {encoder : Encoder} :
    Within level (start sink parameters encoder) := by
  refine ⟨Nat.zero_le level, fun element body member => ?_⟩
  cases member

theorem Within.not_breaksOff {level : Nat} (within : Within level caller)
    (follows : Follows base caller) (takes : caller.Takes call heard next)
    (set : ∀ value, call = .adjust (.depth value) → value.toNat ≤ level)
    (deep : level < Depth.largest)
    (wide : ∀ offset ∈ call.indents?, level + 1 + offset.toInt ≤ longestText) :
    caller.breaksOff call = false := by
  rw [Bool.eq_false_iff]
  intro off
  rcases tooDeep_or_tooWide follows takes off with ⟨-, top⟩ | ⟨offset, asked, tooWide⟩
  · have bound := within.depth
    omega
  · have bound : next.document.format.depth.toNat ≤ level + 1 :=
      (within.step follows takes set).depth
    have room := wide offset asked
    have width := next.document.format.indentation_eq_nearest offset
    rw [Depth.nearest] at width
    omega

/-- Wherever a run has led, a line is indented by depth and offset together, within the range of
depths, and adjustments can be asked for. A call that would lead beyond the largest depth, by
request or by entering a block, breaks off. No other call does, unless it would indent a line by
more than there is room for. Where calls do not break off the depth is as it is counted, and larger
where it was increased. Nor do they break off in runs that set no depth, and indent by no offset,
that comes as close to the largest as there are calls. -/
theorem depth_is_counted_below_the_largest {sink : Sink} {parameters : Parameters}
    {encoder : Encoder} {calls : List Call} {answers : List (Except Error Unit)}
    (ran : (start sink parameters encoder).run calls = some (answers, caller)) :
    (∀ offset : Int64, (caller.document.format.indentation offset : Int) =
      Depth.nearest (caller.depth.toNat + offset.toInt)) ∧
    (∀ place, caller.place? = some place → ∀ change,
      ∃ next, caller.step (.adjust change) = some (.ok (), next)) ∧
    ∀ {call heard next}, caller.step call = some (heard, next) →
      (caller.IsTooDeep call heard → caller.breaksOff call = true) ∧
      (caller.breaksOff call = true → caller.IsTooDeep call heard ∨ next.IsTooWide call) ∧
      (caller.breaksOff call = false →
        (next.depth.toNat : Int) = (caller.depthChange call heard).counted caller.depth.toNat ∧
        (caller.depthChange call heard = .deepens → caller.depth < next.depth)) ∧
      ∀ level, (∀ value, .adjust (.depth value) ∈ call :: calls → value.toNat ≤ level) →
        level + calls.length < Depth.largest →
        (∀ offset ∈ call.indents?, level + calls.length + 1 + offset.toInt ≤ longestText) →
        caller.breaksOff call = false := by
  have follows := follows_of_run ran
  refine ⟨caller.document.format.indentation_eq_nearest, fun place here change =>
    ⟨_, step_of_takes (.adjust here change)⟩, fun {call heard next} stepped => ?_⟩
  have takes := takes_of_step stepped
  refine ⟨breaksOff_of_tooDeep takes, tooDeep_or_tooWide follows takes, fun goesOn => ?_, ?_⟩
  · have counted := depth_of_takes follows takes
    refine ⟨counted, fun deepens => UInt64.lt_iff_toNat_lt.mpr ?_⟩
    have below : caller.depth.toNat ≠ Depth.largest := fun largest =>
      Bool.false_ne_true (goesOn.symm.trans (breaksOff_of_tooDeep takes ⟨deepens, largest⟩))
    have bound := Depth.toNat_le_largest caller.depth
    rw [deepens, DepthChange.counted, Depth.nearest] at counted
    omega
  · intro level set deep wide
    have within := (within_start level).run ran (follows_start sink parameters encoder)
      fun value member => set value (.tail _ member)
    refine within.not_breaksOff follows takes (fun value same => ?_) deep wide
    exact Nat.le_add_right_of_le (set value (same ▸ .head _))

/-- In a division that was opened at a depth of three, the depth is four. A line before it that is
to stand five levels further out is not indented at all. -/
theorem division_is_one_deeper : ∃ answers caller next,
    (start {} {} .markup).run [.adjust (.depth 3), .start .div] = some (answers, caller) ∧
      caller.step .openBody = some (.ok (), next) ∧ caller.breaksOff .openBody = false ∧
      (caller.document.format.indentation (-5) : Int) = 0 ∧ (next.depth.toNat : Int) = 4 := by
  have seen : ((start {} {} .markup).run [.adjust (.depth 3), .start .div]).map (fun result =>
        (result.2.depth, result.2.depthChange .openBody (.ok ()),
          (result.2.step .openBody).map Prod.fst)) = some (3, .deepens, some (.ok ())) := rfl
  obtain ⟨⟨answers, caller⟩, ran, same⟩ := Option.map_eq_some_iff.mp seen
  simp only [Prod.mk.injEq, Option.map_eq_some_iff] at same
  obtain ⟨depth, change, ⟨heard, next⟩, stepped, rfl⟩ := same
  obtain ⟨width, -, steps⟩ := depth_is_counted_below_the_largest ran
  have set : ∀ value, .adjust (.depth value) ∈
      [.openBody, .adjust (.depth 3), Call.start .div] → value.toNat ≤ 3 := by
    intro value member
    obtain rfl : value = 3 := by simpa using member
    exact Nat.le_refl 3
  obtain ⟨-, -, counted, bound⟩ := steps stepped
  have goesOn := bound 3 set (by decide) nofun
  have opened := (counted goesOn).1
  rw [change, depth] at opened
  have out := width (-5)
  rw [depth] at out
  exact ⟨answers, caller, next, ran, stepped, goesOn, out.trans (by decide),
    opened.trans (by decide)⟩

/-- At the largest depth neither a request to increase it nor entering a block is carried out, and
no script can go on after it. A line is indented by as many tabs as a text has room for, and not by
one more. -/
theorem largest_depth_is_not_exceeded :
    ((start {} {} .markup).run [.adjust (.depth 18446744073709551615)]).map
        (fun result => (result.2.depth, result.2.breaksOff (.adjust .deeper))) =
          some (18446744073709551615, true) ∧
      ((start {} {} .markup).run [.adjust (.depth 18446744073709551615), .start .div]).map
        (fun result => result.2.breaksOff .openBody) = some true ∧
      ((start {} {} .markup).run
        [.adjust (.indent true), .adjust (.depth 9223372036854775808)]).map (fun result =>
          (result.2.breaksOff (.write (.indent 0)), result.2.breaksOff (.write (.indent (-1))))) =
            some (true, false) ∧
      (Script.execute (.start {} {} .markup)
        [.adjust (.depth 18446744073709551615), .attempt (.adjust .deeper)]).isNone = true ∧
      (Script.execute (.start {} {} .markup)
        [.adjust (.depth 18446744073709551615), .body (.here .div) [] true []]).isNone = true ∧
      Depth.nearest (18446744073709551615 + 1) = 18446744073709551615 :=
  ⟨rfl, rfl, rfl, rfl, rfl, rfl⟩

end Caller
end HtmlWriter

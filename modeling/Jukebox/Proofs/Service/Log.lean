import Jukebox.Subscribers
import Jukebox.Proofs.Service.Flags

/-!
What those are told who follow the flags and the history. A channel that follows a list of flags
gets a log of it: replayed, the log gives the flags, and no event in it is redundant. A channel that
follows the history gets the plays.
-/

namespace Jukebox

/-! ### Channels -/

namespace Exchange

variable {ε : Type} {exchange : Exchange ε} {channel list : Nat}

/-- **A channel follows a list of subscribers**: it is attached to that list once and to no other,
and somebody reads it. -/
structure Follows (exchange : Exchange ε) (channel list : Nat) : Prop where
  once : (exchange.attached list).count channel = 1
  nowhere_else : ∀ other, other ≠ list → channel ∉ exchange.attached other
  is_read : exchange.isDropped channel = false

theorem follows_attach (hnew : ∀ other, channel ∉ exchange.attached other)
    (hread : exchange.isDropped channel = false) (list : Nat) :
    (exchange.attach list channel).Follows channel list := by
  refine ⟨?_, fun other hne => ?_, hread⟩
  · have hnone := List.count_eq_zero.2 (hnew list)
    simp [attach, hnone]
  · simpa [attach, hne] using hnew other

theorem Follows.attach (h : exchange.Follows channel list) {other : Nat} (hne : other ≠ channel)
    (target : Nat) : (exchange.attach target other).Follows channel list := by
  refine ⟨?_, fun index hindex => ?_, h.is_read⟩
  · simp only [Exchange.attach]
    split
    · rw [List.count_append, h.once, List.count_singleton, if_neg (by simpa using hne)]
    · exact h.once
  · simp only [Exchange.attach]
    split
    · simp [h.nowhere_else index hindex, hne.symm]
    · exact h.nowhere_else index hindex

theorem Follows.count_live (h : exchange.Follows channel list) (other : Nat) :
    ((exchange.attached other).filter fun c => !exchange.isDropped c).count channel =
      if other = list then 1 else 0 := by
  rw [List.count_filter (by simp [h.is_read])]
  split
  · rename_i heq
    rw [heq, h.once]
  · rename_i hne
    exact List.count_eq_zero.2 (h.nowhere_else other hne)

theorem Follows.announce (h : exchange.Follows channel list) (other : Nat) (event : ε) :
    (exchange.announce other event).Follows channel list := by
  refine ⟨?_, fun index hindex => ?_, h.is_read⟩
  · simp only [Exchange.announce]
    split
    · rename_i heq
      rw [h.count_live, if_pos heq.symm]
    · exact h.once
  · simp only [Exchange.announce]
    split
    · exact fun hmem => h.nowhere_else other (by omega) (List.mem_filter.1 hmem |>.1)
    · exact h.nowhere_else index hindex

theorem Follows.received_announce (h : exchange.Follows channel list) (other : Nat) (event : ε) :
    (exchange.announce other event).received channel =
      exchange.received channel ++ if other = list then [event] else [] := by
  simp only [Exchange.announce, h.count_live]
  split <;> rfl

end Exchange

/-! ### Logs -/

namespace Event

/-- The flags after a change of a flag. -/
def replay (flags : Flags) : Event → Flags
  | flagChanged _ path true => flags.insert path
  | flagChanged _ path false => flags.erase path
  | _ => flags

/-- The value that is reported for a path. -/
def valueOf? (path : Path) : Event → Option Bool
  | flagChanged _ other value => if other = path then some value else none
  | _ => none

/-- The values that a log reports for a path. -/
def valuesOf (path : Path) (log : List Event) : List Bool := log.filterMap (valueOf? path)

theorem valuesOf_concat (log : List Event) (list : FlagList) (path other : Path) (value : Bool) :
    valuesOf other (log ++ [.flagChanged list path value]) =
      valuesOf other log ++ if path = other then [value] else [] := by
  rw [valuesOf, List.filterMap_append]
  by_cases hpath : path = other <;> simp [valuesOf, valueOf?, hpath]

end Event

/-- The values alternate, and the first of them is true. -/
def Alternates (values : List Bool) : Prop :=
  ∀ (index : Nat) (value : Bool), values[index]? = some value → (value = true ↔ index % 2 = 0)

theorem Alternates.concat {values : List Bool} {value : Bool} (h : Alternates values)
    (hvalue : value = true ↔ values.length % 2 = 0) : Alternates (values ++ [value]) := by
  intro index found hfound
  rcases Nat.lt_trichotomy index values.length with hlt | rfl | hgt
  · rw [List.getElem?_append_left hlt] at hfound
    exact h index found hfound
  · rw [List.getElem?_concat_length, Option.some.injEq] at hfound
    rw [← hfound, hvalue]
  · rw [List.getElem?_eq_none (by rw [List.length_append, List.length_singleton]; omega)] at hfound
    cases hfound

/-- **A log tells the flags of a list.** Its replay gives the flags, every event in it is one of the
list, and no event is redundant: the values for each path alternate, the first of them being true.
-/
structure Tells (log : List Event) (list : FlagList) (flags : Flags) : Prop where
  replay_eq : log.foldl Event.replay ∅ = flags
  own : ∀ event ∈ log, ∃ path value, event = .flagChanged list path value
  alternates : ∀ path, Alternates (Event.valuesOf path log)
  mem_iff : ∀ path, path ∈ flags ↔ (Event.valuesOf path log).length % 2 = 1

namespace Tells

variable {log : List Event} {list : FlagList} {flags : Flags} {path : Path} {value : Bool}

theorem nil (list : FlagList) : Tells [] list ∅ :=
  ⟨rfl, by simp, by simp [Alternates, Event.valuesOf], by simp [Event.valuesOf]⟩

/-- A value that is new is due: the flag was set just if it was reported an odd number of times. -/
theorem due_of_ne (h : Tells log list flags) (hchanges : flags.contains path ≠ value) :
    value = true ↔ (Event.valuesOf path log).length % 2 = 0 := by
  have hmem := h.mem_iff path
  rw [← Std.ExtTreeSet.contains_iff_mem] at hmem
  cases value with
  | true =>
    have hodd : (Event.valuesOf path log).length % 2 ≠ 1 := fun hodd => hchanges (hmem.2 hodd)
    exact iff_of_true rfl (by omega)
  | false =>
    have hodd : (Event.valuesOf path log).length % 2 = 1 := hmem.1 (by simpa using hchanges)
    exact iff_of_false (by simp) (by omega)

/-- A change that is reported is told. -/
theorem concat (h : Tells log list flags) (hchanges : flags.contains path ≠ value) :
    Tells (log ++ [.flagChanged list path value]) list (flags.assign path value) := by
  have hdue := h.due_of_ne hchanges
  refine ⟨?_, fun event hevent => ?_, fun other => ?_, fun other => ?_⟩
  · rw [List.foldl_append, h.replay_eq]
    cases value <;> rfl
  · rcases List.mem_append.1 hevent with hevent | hevent
    · exact h.own event hevent
    · exact ⟨path, value, List.mem_singleton.1 hevent⟩
  · rw [Event.valuesOf_concat]
    split
    · rename_i hpath
      exact hpath ▸ (h.alternates path).concat hdue
    · rw [List.append_nil]
      exact h.alternates other
  · rw [Event.valuesOf_concat, Flags.mem_assign]
    by_cases hpath : path = other
    · subst hpath
      rw [if_pos rfl, if_pos rfl, hdue, List.length_append, List.length_singleton]
      omega
    · rw [if_neg hpath, if_neg hpath, List.append_nil]
      exact h.mem_iff other

/-- What is reported when a flag is set goes on telling the flags. -/
theorem setFlag {service : Service} (h : Tells log list (service.flags list)) (path : Path)
    (value : Bool) : Tells (log ++ (service.setFlag list path value).2) list
      ((service.setFlag list path value).1.flags list) := by
  rw [Service.flags_setFlag, if_pos rfl]
  by_cases hsame : (service.flags list).contains path = value
  · have hnone : (service.setFlag list path value).2 = [] := if_pos hsame
    rw [hnone, List.append_nil, Flags.assign_of_contains hsame]
    exact h
  · have hevent : (service.setFlag list path value).2 = [.flagChanged list path value] :=
      if_neg hsame
    rw [hevent]
    exact h.concat hsame

end Tells

/-! ### Stores that are followed -/

/-- A flag is set or cleared, or a play is recorded. -/
inductive Call where
  | set (marking : Marking)
  | play (recorded : Play)

namespace Call

/-- What a call marks. -/
def marking? : Call → Option Marking
  | set marking => some marking
  | play _ => none

/-- The play that a call records. -/
def play? : Call → Option Play
  | set _ => none
  | play recorded => some recorded

end Call

/-- The stores of a service, and the channels that are told what changes. -/
structure Followed where
  service : Service
  exchange : Exchange Event

namespace Followed

/-- The subscribers of a list of flags. -/
def subscribersOf : FlagList → Nat
  | .favourite => 0
  | .checklist => 1

/-- The subscribers of the history. -/
def historySubscribers : Nat := 2

theorem subscribersOf_inj {list other : FlagList} :
    subscribersOf list = subscribersOf other ↔ list = other := by
  cases list <;> cases other <;> decide

theorem subscribersOf_ne_history (list : FlagList) : subscribersOf list ≠ historySubscribers := by
  cases list <;> decide

/-- Leaves a store as it is after a call, and announces the events to its subscribers. -/
def settle (followed : Followed) (subscribers : Nat) (left : Service × List Event) : Followed :=
  ⟨left.1, left.2.foldl (·.announce subscribers ·) followed.exchange⟩

def perform (followed : Followed) : Call → Followed
  | .set ⟨list, path, value⟩ =>
    followed.settle (subscribersOf list) (followed.service.setFlag list path value)
  | .play recorded => followed.settle historySubscribers (followed.service.recordPlay recorded)

def run (followed : Followed) (calls : List Call) : Followed := calls.foldl perform followed

variable {followed : Followed} {channel list : Nat}

theorem follows_settle (h : followed.exchange.Follows channel list) (subscribers : Nat)
    (left : Service × List Event) :
    (followed.settle subscribers left).exchange.Follows channel list := by
  obtain ⟨service, events⟩ := left
  obtain ⟨before, exchange⟩ := followed
  simp only [settle]
  induction events generalizing exchange with
  | nil => exact h
  | cons event rest ih => exact ih _ (h.announce subscribers event)

/-- A channel that follows the subscribers is told the events, any other one is told nothing. -/
theorem received_settle (h : followed.exchange.Follows channel list) (subscribers : Nat)
    (left : Service × List Event) :
    (followed.settle subscribers left).exchange.received channel =
      followed.exchange.received channel ++ if subscribers = list then left.2 else [] := by
  obtain ⟨service, events⟩ := left
  obtain ⟨before, exchange⟩ := followed
  simp only [settle]
  induction events generalizing exchange with
  | nil => simp
  | cons event rest ih =>
    have hrest := ih (exchange.announce subscribers event) (h.announce subscribers event)
    rw [h.received_announce] at hrest
    refine hrest.trans ?_
    split <;> simp

/-! ### Runs -/

/-- **The channels were told all that was done**: the flags are as the calls marked them and are
told by their logs, and the history is the plays of the calls and is told in order. -/
structure Told (followed : Followed) (channelOf : FlagList → Nat) (listener : Nat)
    (earlier : Exchange Event) (calls : List Call) : Prop where
  follows : ∀ list, followed.exchange.Follows (channelOf list) (subscribersOf list)
  listens : followed.exchange.Follows listener historySubscribers
  marked : followed.service.MarkedBy (calls.filterMap Call.marking?)
  history_eq : followed.service.history = calls.filterMap Call.play?
  flags_told : ∀ list, ∃ log, followed.exchange.received (channelOf list) =
    earlier.received (channelOf list) ++ log ∧ Tells log list (followed.service.flags list)
  plays_told : followed.exchange.received listener = earlier.received listener ++
    followed.service.history.map fun play => .playRecorded play.path play.playedAt

variable {channelOf : FlagList → Nat} {listener : Nat} {earlier : Exchange Event}
  {calls : List Call}

theorem Told.set (h : followed.Told channelOf listener earlier calls) (list : FlagList)
    (path : Path) (value : Bool) :
    (followed.perform (.set ⟨list, path, value⟩)).Told channelOf listener earlier
      (calls ++ [.set ⟨list, path, value⟩]) := by
  have hhistory : (followed.service.setFlag list path value).1.history =
      followed.service.history := by cases list <;> rfl
  refine ⟨fun other => follows_settle (h.follows other) _ _, follows_settle h.listens _ _, ?_, ?_,
    fun other => ?_, ?_⟩
  · rw [List.filterMap_append]
    exact h.marked.setFlag list path value
  · have hplays : (calls ++ [Call.set ⟨list, path, value⟩]).filterMap Call.play? =
        calls.filterMap Call.play? := by simp [Call.play?]
    rw [hplays, ← h.history_eq]
    exact hhistory
  · obtain ⟨log, hlog, htells⟩ := h.flags_told other
    have hreceived := received_settle (h.follows other) (subscribersOf list)
      (followed.service.setFlag list path value)
    rw [hlog, List.append_assoc] at hreceived
    refine ⟨_, hreceived, ?_⟩
    by_cases hlist : list = other
    · subst hlist
      rw [if_pos rfl]
      exact htells.setFlag path value
    · -- the flags of the other list stay as they are, and nothing is told of them
      have hflags := followed.service.flags_setFlag list other path value
      rw [if_neg hlist] at hflags
      rw [if_neg (mt subscribersOf_inj.1 hlist), List.append_nil]
      exact hflags.symm ▸ htells
  · have hreceived := received_settle h.listens (subscribersOf list)
      (followed.service.setFlag list path value)
    rw [if_neg (subscribersOf_ne_history list), List.append_nil, h.plays_told,
      ← hhistory] at hreceived
    exact hreceived

theorem Told.play (h : followed.Told channelOf listener earlier calls) (recorded : Play) :
    (followed.perform (.play recorded)).Told channelOf listener earlier
      (calls ++ [.play recorded]) := by
  have hflags : ∀ list, (followed.service.recordPlay recorded).1.flags list =
      followed.service.flags list := by intro list; cases list <;> rfl
  refine ⟨fun other => follows_settle (h.follows other) _ _, follows_settle h.listens _ _, ?_, ?_,
    fun other => ?_, ?_⟩
  · have hmarkings : (calls ++ [Call.play recorded]).filterMap Call.marking? =
        calls.filterMap Call.marking? := by simp [Call.marking?]
    rw [hmarkings]
    exact h.marked.congr hflags
  · have hplays : (calls ++ [Call.play recorded]).filterMap Call.play? =
        calls.filterMap Call.play? ++ [recorded] := by simp [Call.play?]
    rw [hplays, ← h.history_eq]
    rfl
  · obtain ⟨log, hlog, htells⟩ := h.flags_told other
    have hreceived := received_settle (h.follows other) historySubscribers
      (followed.service.recordPlay recorded)
    rw [if_neg (subscribersOf_ne_history other).symm, List.append_nil, hlog] at hreceived
    exact ⟨log, hreceived, (hflags other).symm ▸ htells⟩
  · have hreceived := received_settle h.listens historySubscribers
      (followed.service.recordPlay recorded)
    rw [if_pos rfl, h.plays_told, List.append_assoc] at hreceived
    refine hreceived.trans ?_
    simp [perform, settle, Service.recordPlay]

theorem Told.run (h : followed.Told channelOf listener earlier calls) (later : List Call) :
    (followed.run later).Told channelOf listener earlier (calls ++ later) := by
  induction later generalizing followed calls with
  | nil => simpa [Followed.run] using h
  | cons call rest ih =>
    have hstep : (followed.perform call).Told channelOf listener earlier (calls ++ [call]) := by
      cases call with
      | set marking => exact h.set marking.list marking.path marking.value
      | play recorded => exact h.play recorded
    have hrun := ih hstep
    rw [List.append_assoc] at hrun
    exact hrun

/-- **The streams of events are faithful logs.** From stores without flags and without plays, with a
channel that follows each of the lists of flags and one that follows the history, and after any
calls: what the channel of a list has received, replayed, gives the flags, which are as the latest
calls for each path left them; the values that are delivered for a path alternate, the first of them
being true; and every event is one of the list. What the channel of the history has received are the
plays of the history in order, and these are the plays of the calls. -/
theorem streams_faithful (service : Service) (exchange : Exchange Event)
    (channelOf : FlagList → Nat) (listener : Nat)
    (hfollows : ∀ list, exchange.Follows (channelOf list) (subscribersOf list))
    (hlistens : exchange.Follows listener historySubscribers) (calls : List Call) :
    let start : Followed :=
      ⟨{ service with favourites := ∅, checklist := ∅, history := [] }, exchange⟩
    let after := start.run calls
    (∀ list, ∃ log,
      after.exchange.received (channelOf list) = exchange.received (channelOf list) ++ log ∧
      log.foldl Event.replay ∅ = after.service.flags list ∧
      (∀ path, path ∈ after.service.flags list ↔
        Marking.latest? (calls.filterMap Call.marking?) list path = some true) ∧
      (∀ path (index : Nat) value, (Event.valuesOf path log)[index]? = some value →
        (value = true ↔ index % 2 = 0)) ∧
      ∀ event ∈ log, ∃ path value, event = .flagChanged list path value) ∧
    after.exchange.received listener = exchange.received listener ++
      after.service.history.map (fun play => .playRecorded play.path play.playedAt) ∧
    after.service.history = calls.filterMap Call.play? := by
  intro start after
  have hstart : start.Told channelOf listener exchange [] :=
    ⟨hfollows, hlistens, Service.markedBy_nil fun list => by cases list <;> rfl, rfl,
      fun list => ⟨[], (List.append_nil _).symm, by cases list <;> exact .nil _⟩,
      (List.append_nil _).symm⟩
  have h : after.Told channelOf listener exchange calls := hstart.run calls
  refine ⟨fun list => ?_, h.plays_told, h.history_eq⟩
  obtain ⟨log, hlog, htells⟩ := h.flags_told list
  exact ⟨log, hlog, htells.replay_eq, h.marked list, htells.alternates, htells.own⟩

/-- A favourite that is set twice and then cleared is reported twice, and nothing is reported of the
path on the checklist. -/
theorem streams_faithful_disc :
    let disc : Path := ["music", "disc"]
    let exchange := ((({} : Exchange Event).attach 0 7).attach 1 8).attach 2 9
    let channelOf : FlagList → Nat := fun list => 7 + subscribersOf list
    let calls : List Call := [.set ⟨.favourite, disc, true⟩, .set ⟨.checklist, disc, true⟩,
      .set ⟨.favourite, disc, true⟩, .set ⟨.favourite, disc, false⟩]
    let after := Followed.run ⟨.start (.ofGroups ∅) "music", exchange⟩ calls
    let log : List Event := [.flagChanged .favourite disc true, .flagChanged .favourite disc false]
    (∀ list, exchange.Follows (channelOf list) (subscribersOf list)) ∧
    exchange.Follows 9 historySubscribers ∧ after.exchange.received 7 = log ∧
    log.foldl Event.replay ∅ = after.service.flags .favourite := by
  intro disc exchange channelOf calls after log
  have hfollows : ∀ list, exchange.Follows (channelOf list) (subscribersOf list) := by
    intro list
    cases list with
    | favourite =>
      have hattached := @Exchange.follows_attach Event {} 7 (by simp) rfl 0
      exact (hattached.attach (by decide) 1).attach (by decide) 2
    | checklist =>
      have hnew : ∀ other, 8 ∉ (({} : Exchange Event).attach 0 7).attached other := by
        intro other
        simp [Exchange.attach]
      exact (Exchange.follows_attach hnew rfl 1).attach (by decide) 2
  have hlistens : exchange.Follows 9 historySubscribers := by
    refine Exchange.follows_attach (fun other => ?_) rfl 2
    simp only [Exchange.attach]
    split <;> split <;> decide
  have hreceived : after.exchange.received 7 = log := by decide +kernel
  obtain ⟨told, htold, hreplay, -⟩ := (streams_faithful (.start (.ofGroups ∅) "music") exchange
    channelOf 9 hfollows hlistens calls).1 .favourite
  have hlog : told = log := htold.symm.trans hreceived
  exact ⟨hfollows, hlistens, hreceived, hlog ▸ hreplay⟩

end Followed

end Jukebox

import Jukebox.Proofs.Protocol.Slots
import Jukebox.Protocol.Command

/-!
The grammar of commands. The slots of an action, and of its word for what to do, are told here by
lists, apart from the reading. A command is read by the slots of its action, and carries what the
fields hold.
-/

namespace Jukebox.Protocol

open Result (bind_eq_ok_iff)

/-! ### The slots of an action -/

namespace Tag

/-- What a word for a player demands: the list of the players nothing, any other word the key of the
player. -/
def playerSlots (word : Option String) : List Slot :=
  if word = some "LIST" then [] else [.required "key" .string, .optional "value" .value]

def playlistWords : List String :=
  ["FETCH", "APPEND", "PLAY_NOW", "REMOVE", "PLAY_ITEM", "NEXT", "PREV", "CLEAR"]

def cursorWords : List String := ["FETCH", "SET", "NEXT", "PREV", "RESET", "FOLLOW"]

/-- What a word for a playlist demands. -/
def playlistSlots : Option String → List Slot
  | some "APPEND" | some "PLAY_NOW" => [.required "path" .path]
  | some "REMOVE" => [.optional "index" .index, .required "path" .path]
  | some "PLAY_ITEM" => [.required "index" .index, .required "path" .path]
  | _ => []

/-- What a word for a cursor demands, without the index, which means nothing. -/
def cursorSlots : Option String → List Slot
  | some "SET" => [.required "path" .path]
  | _ => []

/-- What an action demands, in the order in which it is asked for. -/
def slots (fields : Fields) : Tag → List Slot
  | key => [.required "key" .string]
  | player => .required "action" .string :: playerSlots fields.word?
  | recordPlay | fetch => [.required "path" .path]
  | setFavourite | setChecklist => [.required "path" .path, .required "value" .bool]
  | playlist => .required "name" .string ::
    .required "action" (.word playlistWords .playlistVerb) :: playlistSlots fields.word?
  | cursor => .required "name" .string ::
    .required "action" (.word cursorWords .cursorVerb) :: cursorSlots fields.word? ++
    [.optional "index" .index]
  | search => [.required "input" .string]
  | filterList | fetchPathList => [.required "name" .string]
  | filterPaths => [.required "name" .string, .required "path" .path]

end Tag

variable {fields : Fields}

theorem readBy_playlistAction : ReadBy
    (.required "action" (.word Tag.playlistWords .playlistVerb) :: Tag.playlistSlots fields.word?)
    fields Command.playlistAction := by
  refine ReadBy.byWord (fun w hw hword => ?_) fun w hw fields => ?_
  · rw [hword]
    simp only [Tag.playlistWords, List.mem_cons, List.not_mem_nil, or_false] at hw
    rcases hw with rfl | rfl | rfl | rfl | rfl | rfl | rfl | rfl
    · exact .pure _
    · exact (ReadBy.path "path").map _
    · exact (ReadBy.path "path").map _
    · exact (ReadBy.optionalIndex "index").bind fun _ _ => (ReadBy.path "path").map _
    · exact (ReadBy.index "index").bind fun _ _ => (ReadBy.path "path").map _
    · exact .pure _
    · exact .pure _
    · exact .pure _
  · simp only [Tag.playlistWords, List.mem_cons, List.not_mem_nil, or_false, not_or] at hw
    split
    case h_9 => rfl
    all_goals simp at hw

theorem readBy_cursorVerb : ReadBy
    (.required "action" (.word Tag.cursorWords .cursorVerb) :: Tag.cursorSlots fields.word?)
    fields Command.cursorVerb := by
  refine ReadBy.byWord (fun w hw hword => ?_) fun w hw fields => ?_
  · rw [hword]
    simp only [Tag.cursorWords, List.mem_cons, List.not_mem_nil, or_false] at hw
    rcases hw with rfl | rfl | rfl | rfl | rfl | rfl
    · exact .pure _
    · exact (ReadBy.path "path").map _
    · exact .pure _
    · exact .pure _
    · exact .pure _
    · exact .pure _
  · simp only [Tag.cursorWords, List.mem_cons, List.not_mem_nil, or_false, not_or] at hw
    split
    case h_7 => rfl
    all_goals simp at hw

theorem readBy_ofPlayerFields : ReadBy
    (.required "action" .string :: Tag.playerSlots fields.word?) fields Command.ofPlayerFields := by
  refine (ReadBy.string "action").bind fun action haction => ?_
  rw [Fields.word?_eq_some_iff.2 (Fields.string_eq_ok_iff.1 haction)]
  by_cases hlist : action = "LIST"
  · subst hlist
    exact .pure _
  · simp only [Option.some.injEq, if_neg hlist]
    exact (ReadBy.string "key").bind fun k _ =>
      ReadBy.optional "value" fun value => Command.forward k ⟨action, value⟩

theorem readBy_ofFields (tag : Tag) :
    ReadBy (tag.slots fields) fields fun fields => Command.ofFields fields tag := by
  cases tag with
  | key | search | filterList | fetchPathList => exact (ReadBy.string _).map _
  | recordPlay | fetch => exact (ReadBy.path _).map _
  | setFavourite | setChecklist =>
    exact (ReadBy.path _).bind fun _ _ => (ReadBy.bool _).map _
  | filterPaths =>
    exact (ReadBy.string _).bind fun _ _ => (ReadBy.path _).map _
  | player => exact readBy_ofPlayerFields
  | playlist => exact (ReadBy.string _).bind fun _ _ => readBy_playlistAction.map _
  | cursor =>
    refine (ReadBy.string _).bind fun _ _ => ReadBy.map ?_ _
    exact readBy_cursorVerb.bind fun _ _ => (ReadBy.optionalIndex _).discard.map _

/-! ### What a command carries -/

/-- What an action on a playlist carries is what the fields hold. -/
def Command.PlaylistWrittenIn (fields : Fields) (action : Playlist.Action) : Prop :=
  fields.HasString "action" action.verb ∧
  match action with
  | .append path | .playNow path => fields.HasPath "path" path
  | .remove index path =>
    (∃ given, fields.HasIndex? "index" given ∧ index = given.getD 0) ∧ fields.HasPath "path" path
  | .playItem index path => fields.HasIndex "index" index ∧ fields.HasPath "path" path
  | .fetch | .next | .prev | .clear => True

/-- What an action on a cursor carries is what the fields hold. -/
def Command.CursorWrittenIn (fields : Fields) (action : Cursor.Action) : Prop :=
  fields.HasString "action" action.verb ∧
  match action with
  | .set path => fields.HasPath "path" path
  | .fetch | .next | .prev | .reset | .follow => True

/-- What a command carries is what the fields hold. -/
def Command.WrittenIn (fields : Fields) : Command → Prop
  | key k => fields.HasString "key" k
  | players => fields.HasString "action" "LIST"
  | forward k action => fields.HasString "action" action.action ∧ action.action ≠ "LIST" ∧
    fields.HasString "key" k ∧ fields.optional "value" = action.value
  | recordPlay path | fetch path => fields.HasPath "path" path
  | setFlag _ path value => fields.HasPath "path" path ∧ fields.HasBool "value" value
  | playlist name action => fields.HasString "name" name ∧ PlaylistWrittenIn fields action
  | cursor name action => fields.HasString "name" name ∧ CursorWrittenIn fields action ∧
    ∃ given, fields.HasIndex? "index" given
  | search input => fields.HasString "input" input
  | filterList name | fetchPathList name => fields.HasString "name" name
  | filterPaths name path => fields.HasString "name" name ∧ fields.HasPath "path" path

/-! ### Commands -/

theorem Tag.ofName?_eq_some_iff {name : String} {tag : Tag} :
    ofName? name = some tag ↔ tag.name = name := by
  constructor
  · intro h
    simpa using List.find?_some h
  · rintro rfl
    cases tag <;> rfl

namespace Command

theorem playlistAction_eq_ok_iff {action : Playlist.Action} :
    playlistAction fields = .ok action ↔ PlaylistWrittenIn fields action := by
  simp only [playlistAction, bind_eq_ok_iff, Fields.string_eq_ok_iff]
  constructor
  · rintro ⟨w, hw, h⟩
    split at h
    case h_2 | h_3 =>
      obtain ⟨path, hpath, h⟩ := bind_eq_ok_iff.1 h
      cases h
      exact ⟨hw, Fields.path_eq_ok_iff.1 hpath⟩
    case h_4 =>
      obtain ⟨given, hgiven, h⟩ := bind_eq_ok_iff.1 h
      obtain ⟨path, hpath, h⟩ := bind_eq_ok_iff.1 h
      cases h
      exact ⟨hw, ⟨given, Fields.optionalIndex_eq_ok_iff.1 hgiven, rfl⟩,
        Fields.path_eq_ok_iff.1 hpath⟩
    case h_5 =>
      obtain ⟨index, hindex, h⟩ := bind_eq_ok_iff.1 h
      obtain ⟨path, hpath, h⟩ := bind_eq_ok_iff.1 h
      cases h
      exact ⟨hw, Fields.index_eq_ok_iff.1 hindex, Fields.path_eq_ok_iff.1 hpath⟩
    case h_9 => cases h
    all_goals
      cases h
      exact ⟨hw, trivial⟩
  · rintro ⟨hw, h⟩
    refine ⟨action.verb, hw, ?_⟩
    cases action with
    | fetch | next | prev | clear => rfl
    | append path | playNow path =>
      exact bind_eq_ok_iff.2 ⟨path, Fields.path_eq_ok_iff.2 h, rfl⟩
    | remove index path =>
      obtain ⟨⟨given, hgiven, rfl⟩, hpath⟩ := h
      exact bind_eq_ok_iff.2 ⟨given, Fields.optionalIndex_eq_ok_iff.2 hgiven,
        bind_eq_ok_iff.2 ⟨path, Fields.path_eq_ok_iff.2 hpath, rfl⟩⟩
    | playItem index path =>
      exact bind_eq_ok_iff.2 ⟨index, Fields.index_eq_ok_iff.2 h.1,
        bind_eq_ok_iff.2 ⟨path, Fields.path_eq_ok_iff.2 h.2, rfl⟩⟩

theorem cursorVerb_eq_ok_iff {action : Cursor.Action} :
    cursorVerb fields = .ok action ↔ CursorWrittenIn fields action := by
  simp only [cursorVerb, bind_eq_ok_iff, Fields.string_eq_ok_iff]
  constructor
  · rintro ⟨w, hw, h⟩
    split at h
    case h_2 =>
      obtain ⟨path, hpath, h⟩ := bind_eq_ok_iff.1 h
      cases h
      exact ⟨hw, Fields.path_eq_ok_iff.1 hpath⟩
    case h_7 => cases h
    all_goals
      cases h
      exact ⟨hw, trivial⟩
  · rintro ⟨hw, h⟩
    refine ⟨action.verb, hw, ?_⟩
    cases action with
    | fetch | next | prev | reset | follow => rfl
    | set path => exact bind_eq_ok_iff.2 ⟨path, Fields.path_eq_ok_iff.2 h, rfl⟩

theorem cursorAction_eq_ok_iff {action : Cursor.Action} :
    cursorAction fields = .ok action ↔
      CursorWrittenIn fields action ∧ ∃ given, fields.HasIndex? "index" given := by
  have hdiscard : (∃ done, discard (fields.optionalIndex "index") = .ok done) ↔
      ∃ given, fields.HasIndex? "index" given := by
    simp only [← Fields.optionalIndex_eq_ok_iff]
    cases fields.optionalIndex "index" <;> simp [Functor.discard, Functor.mapConst, Except.map]
  simp only [cursorAction, bind_eq_ok_iff, cursorVerb_eq_ok_iff, ← hdiscard]
  constructor
  · rintro ⟨verb, hverb, done, hdone, h⟩
    cases h
    exact ⟨hverb, done, hdone⟩
  · rintro ⟨hverb, done, hdone⟩
    exact ⟨action, hverb, done, hdone, rfl⟩

theorem tag_and_writtenIn_of_ofPlayerFields {command : Command}
    (h : ofPlayerFields fields = .ok command) : command.tag = .player ∧ command.WrittenIn fields := by
  obtain ⟨action, haction, h⟩ := bind_eq_ok_iff.1 h
  rw [Fields.string_eq_ok_iff] at haction
  split at h
  · rename_i hlist
    cases h
    subst hlist
    exact ⟨rfl, haction⟩
  · rename_i hlist
    obtain ⟨k, hk, h⟩ := bind_eq_ok_iff.1 h
    cases h
    exact ⟨rfl, haction, hlist, Fields.string_eq_ok_iff.1 hk, rfl⟩

theorem tag_and_writtenIn_of_ofFields {tag : Tag} {command : Command}
    (h : ofFields fields tag = .ok command) : command.tag = tag ∧ command.WrittenIn fields := by
  cases tag with
  | key | search | filterList | fetchPathList =>
    obtain ⟨s, hs, h⟩ := bind_eq_ok_iff.1 h
    cases h
    exact ⟨rfl, Fields.string_eq_ok_iff.1 hs⟩
  | player => exact tag_and_writtenIn_of_ofPlayerFields h
  | recordPlay | fetch =>
    obtain ⟨path, hpath, h⟩ := bind_eq_ok_iff.1 h
    cases h
    exact ⟨rfl, Fields.path_eq_ok_iff.1 hpath⟩
  | setFavourite | setChecklist =>
    obtain ⟨path, hpath, h⟩ := bind_eq_ok_iff.1 h
    obtain ⟨value, hvalue, h⟩ := bind_eq_ok_iff.1 h
    cases h
    exact ⟨rfl, Fields.path_eq_ok_iff.1 hpath, Fields.bool_eq_ok_iff.1 hvalue⟩
  | playlist =>
    obtain ⟨name, hname, h⟩ := bind_eq_ok_iff.1 h
    obtain ⟨action, haction, h⟩ := bind_eq_ok_iff.1 h
    cases h
    exact ⟨rfl, Fields.string_eq_ok_iff.1 hname, playlistAction_eq_ok_iff.1 haction⟩
  | cursor =>
    obtain ⟨name, hname, h⟩ := bind_eq_ok_iff.1 h
    obtain ⟨action, haction, h⟩ := bind_eq_ok_iff.1 h
    cases h
    exact ⟨rfl, Fields.string_eq_ok_iff.1 hname, cursorAction_eq_ok_iff.1 haction⟩
  | filterPaths =>
    obtain ⟨name, hname, h⟩ := bind_eq_ok_iff.1 h
    obtain ⟨path, hpath, h⟩ := bind_eq_ok_iff.1 h
    cases h
    exact ⟨rfl, Fields.string_eq_ok_iff.1 hname, Fields.path_eq_ok_iff.1 hpath⟩

theorem ofFields_of_writtenIn {command : Command} (h : command.WrittenIn fields) :
    ofFields fields command.tag = .ok command := by
  cases command with
  | key s | search s | filterList s | fetchPathList s =>
    exact bind_eq_ok_iff.2 ⟨s, Fields.string_eq_ok_iff.2 h, rfl⟩
  | players => exact bind_eq_ok_iff.2 ⟨"LIST", Fields.string_eq_ok_iff.2 h, if_pos rfl⟩
  | forward k action =>
    obtain ⟨haction, hlist, hk, hvalue⟩ := h
    refine bind_eq_ok_iff.2 ⟨action.action, Fields.string_eq_ok_iff.2 haction, ?_⟩
    rw [if_neg hlist, hvalue]
    exact bind_eq_ok_iff.2 ⟨k, Fields.string_eq_ok_iff.2 hk, rfl⟩
  | recordPlay path | fetch path => exact bind_eq_ok_iff.2 ⟨path, Fields.path_eq_ok_iff.2 h, rfl⟩
  | setFlag list path value =>
    cases list <;>
    exact bind_eq_ok_iff.2 ⟨path, Fields.path_eq_ok_iff.2 h.1,
      bind_eq_ok_iff.2 ⟨value, Fields.bool_eq_ok_iff.2 h.2, rfl⟩⟩
  | playlist name action =>
    exact bind_eq_ok_iff.2 ⟨name, Fields.string_eq_ok_iff.2 h.1,
      bind_eq_ok_iff.2 ⟨action, playlistAction_eq_ok_iff.2 h.2, rfl⟩⟩
  | cursor name action =>
    exact bind_eq_ok_iff.2 ⟨name, Fields.string_eq_ok_iff.2 h.1,
      bind_eq_ok_iff.2 ⟨action, cursorAction_eq_ok_iff.2 h.2, rfl⟩⟩
  | filterPaths name path =>
    exact bind_eq_ok_iff.2 ⟨name, Fields.string_eq_ok_iff.2 h.1,
      bind_eq_ok_iff.2 ⟨path, Fields.path_eq_ok_iff.2 h.2, rfl⟩⟩

theorem ofEnvelope_of_name {envelope : Envelope} {tag : Tag} (h : tag.name = envelope.action) :
    ofEnvelope envelope = ofFields envelope.data tag := by
  simp only [ofEnvelope, Tag.ofName?_eq_some_iff.2 h]

theorem ofEnvelope_of_unknown {envelope : Envelope} (h : ∀ tag : Tag, tag.name ≠ envelope.action) :
    ofEnvelope envelope = .error (.unknownAction envelope.action) := by
  have hnone : Tag.ofName? envelope.action = none :=
    Option.eq_none_iff_forall_not_mem.2 fun tag htag => h tag (Tag.ofName?_eq_some_iff.1 htag)
  simp only [ofEnvelope, hnone]

/-- **The grammar of commands.** An envelope makes a command just where the command has its action
and is written in its data. The action is unknown just where it is no tag's. For a tag's action, the
reading is that of the tag's slots: it succeeds if all are filled, it blames the first that is not,
and what the data hold besides is of no effect. -/
theorem ofEnvelope_grammar (envelope : Envelope) :
    (∀ command, ofEnvelope envelope = .ok command ↔
      command.tag.name = envelope.action ∧ command.WrittenIn envelope.data) ∧
    (∀ action, ofEnvelope envelope = .error (.unknownAction action) ↔
      action = envelope.action ∧ ∀ tag : Tag, tag.name ≠ envelope.action) ∧
    ∀ tag : Tag, tag.name = envelope.action →
      ((∃ command, ofEnvelope envelope = .ok command) ↔
        ∀ slot ∈ tag.slots envelope.data, slot.Filled envelope.data) ∧
      (∀ failure, ofEnvelope envelope = .error failure → ∃ reason, failure = .malformed reason ∧
        FirstFault (tag.slots envelope.data) envelope.data reason) ∧
      ∀ data : Fields,
        (∀ slot ∈ tag.slots envelope.data, slot.held data = slot.held envelope.data) →
        ofEnvelope { envelope with data } = ofEnvelope envelope := by
  refine ⟨fun command => ⟨fun h => ?_, fun ⟨htag, h⟩ => ?_⟩, fun action => ⟨fun h => ?_, ?_⟩,
    fun tag htag => ?_⟩
  · by_cases hknown : ∃ tag : Tag, tag.name = envelope.action
    · obtain ⟨tag, htag⟩ := hknown
      rw [ofEnvelope_of_name htag] at h
      obtain ⟨rfl, hwritten⟩ := tag_and_writtenIn_of_ofFields h
      exact ⟨htag, hwritten⟩
    · rw [ofEnvelope_of_unknown (not_exists.1 hknown)] at h
      cases h
  · rw [ofEnvelope_of_name htag]
    exact ofFields_of_writtenIn h
  · by_cases hknown : ∃ tag : Tag, tag.name = envelope.action
    · obtain ⟨tag, htag⟩ := hknown
      rw [ofEnvelope_of_name htag] at h
      obtain ⟨reason, -, hreason⟩ := (readBy_ofFields tag).fails _ h
      cases hreason
    · rw [ofEnvelope_of_unknown (not_exists.1 hknown)] at h
      cases h
      exact ⟨rfl, not_exists.1 hknown⟩
  · rintro ⟨rfl, hunknown⟩
    exact ofEnvelope_of_unknown hunknown
  · have hread : ReadBy (tag.slots envelope.data) envelope.data _ := readBy_ofFields tag
    rw [ofEnvelope_of_name htag]
    refine ⟨hread.succeeds, fun failure h => ?_, fun data hdata => ?_⟩
    · obtain ⟨reason, hfault, hreason⟩ := hread.fails failure h
      exact ⟨reason, hreason, hfault⟩
    · have hother : ofEnvelope ⟨envelope.action, data⟩ = ofFields data tag := ofEnvelope_of_name htag
      exact hother.trans (hread.unmoved data hdata)

/-- The path is blamed before the index, although the index is given and is no index. -/
example : ofEnvelope ⟨"CURSOR", [("action", .string "SET"), ("index", .string "1"),
    ("name", .string "main")]⟩ = .error (.malformed (.missing "path")) := rfl

end Command

end Jukebox.Protocol

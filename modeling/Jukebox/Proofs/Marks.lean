import Jukebox.Proofs.Archive
import Jukebox.Proofs.Catalog.Codec
import Jukebox.Proofs.Catalog.View
import Jukebox.Proofs.Routing

/-!
The marks that are shown. Whichever connections set and clear flags, and in whatever order, a group
is shown with the marks that the latest frames for its own path gave it, and a list of paths with
the groups that hold a marked path.
-/

namespace Jukebox

open Protocol (Command Response Tag)
open Result (bind_eq_ok_iff pure_eq_ok_iff)

def Protocol.Command.marking? : Command → Option Marking
  | setFlag list path value => some ⟨list, path, value⟩
  | _ => none

namespace Session

variable {session : Session} {service : Service} {circumstances : Circumstances}
  {command : Command} {markings : List Marking}

/-! ### What a session marks -/

def Inbound.marking? : Inbound → Option Marking
  | .text frame =>
    match Command.ofText frame with
    | .ok command => command.marking?
    | .error _ => none
  | .failure _ | .finish => none

theorem markedBy_handle (h : service.MarkedBy markings) (session : Session)
    (circumstances : Circumstances) (command : Command) :
    (session.handle service circumstances command).service.MarkedBy
      (markings ++ command.marking?.toList) := by
  have hsame : ∀ {after : Service}, (∀ list, after.flags list = service.flags list) →
      after.MarkedBy (markings ++ []) := by
    intro after hflags
    rw [List.append_nil]
    exact h.congr hflags
  cases command with
  | setFlag list path value => exact h.setFlag list path value
  | forward key action =>
    refine hsame fun list => ?_
    simp only [handle]
    split <;> rfl
  | _ => exact hsame fun list => by cases list <;> rfl

theorem flags_close (session : Session) (service : Service) (list : FlagList) :
    (session.close service).flags list = service.flags list := by
  unfold close
  split
  · rfl
  · cases list <;> rfl

theorem flags_settle (effect : Effect) (isOpen : Nat → Bool) (list : FlagList) :
    (settle effect isOpen).service.flags list = effect.service.flags list := by
  unfold settle
  dsimp only
  split
  · rfl
  · split
    · rfl
    · exact flags_close _ _ list
  · exact flags_close _ _ list

theorem markedBy_step (h : service.MarkedBy markings) (session : Session)
    (circumstances : Circumstances) (inbound : Inbound) :
    (session.step service circumstances inbound).service.MarkedBy
      (markings ++ inbound.marking?.toList) := by
  have hclosed : (session.close service).MarkedBy (markings ++ []) := by
    rw [List.append_nil]
    exact h.congr (flags_close session service)
  cases inbound with
  | failure | finish => exact hclosed
  | text frame =>
    simp only [step, Inbound.marking?]
    cases Command.ofText frame with
    | error failure => exact hclosed
    | ok command =>
      exact (markedBy_handle h session circumstances command).congr (flags_settle _ _)

/-! ### What a session shows -/

/-- A command that is answered sends the answer, and nothing before it unless it passes an action
on. -/
theorem sent_step_of_answer {frame : String} {response : Response}
    (hcommand : Command.ofText frame = .ok command)
    (hforward : ∀ key action, command ≠ .forward key action)
    (hanswer : (session.handle service circumstances command).answer = .ok (some response))
    (hopen : circumstances.isOpen session.id = true) :
    (session.step service circumstances (.text frame)).sent = [(session.id, response)] := by
  have hid := @id_handle session service circumstances command
  have hpushed := @pushed_handle session service circumstances command hforward
  simp [step, hcommand, settle, hanswer, hid, hopen, hpushed]

theorem sent_step_of_failure {frame : String} {failure : Protocol.Failure}
    (hcommand : Command.ofText frame = .ok command)
    (hanswer : (session.handle service circumstances command).answer = .error failure) :
    (session.step service circumstances (.text frame)).sent = [] := by
  have hpushed := pushed_of_error hanswer
  simp [step, hcommand, settle, hanswer, hpushed]

/-- The response that shows a group. -/
def fetchResponse (path : Path) (view : GroupView) : Response :=
  .of "FETCH" (.object [("Path", path.toJson), ("Item", view.toJson)])

/-- The response that shows the groups of a list. -/
def pathListResponse (name : String) (views : List GroupView) : Response :=
  .of "FETCH_PATHLIST" (.object [("Name", .string name), ("Data", .list GroupView.toJson views)])

/-- What is found in a response that shows the group at a path. -/
structure ShowsGroup (response : Response) (path : Path) (view : GroupView) : Prop where
  action : response.action = "FETCH"
  path : response.data.member? "Path" = some (.list .string path)
  item : ∃ item, response.data.member? "Item" = some item ∧ view.ShownBy item

/-- What is found in a response that shows the groups of a list. -/
structure ShowsList (response : Response) (name : String) (views : List GroupView) : Prop where
  action : response.action = "FETCH_PATHLIST"
  name : response.data.member? "Name" = some (.string name)
  items : ∃ items, response.data.member? "Data" = some (.array items) ∧
    List.Forall₂ GroupView.ShownBy views items

theorem showsGroup_fetchResponse (path : Path) (view : GroupView) :
    ShowsGroup (fetchResponse path view) path view := by
  have hpath : path.toJson.sorted = path.toJson := path.inOrder_toJson
  refine ⟨rfl, ?_, view.toJson.sorted, ?_, view.shownBy_toJson⟩ <;>
    rw [fetchResponse, Response.of, Json.member?_sorted_object]
  · exact congrArg some hpath
  · rfl

theorem showsList_pathListResponse (name : String) (views : List GroupView) :
    ShowsList (pathListResponse name views) name views := by
  refine ⟨rfl, ?_, views.map fun view => view.toJson.sorted, ?_, ?_⟩
  · rw [pathListResponse, Response.of, Json.member?_sorted_object]
    rfl
  · rw [pathListResponse, Response.of, Json.member?_sorted_object]
    exact congrArg some (Json.sorted_list GroupView.toJson views)
  · rw [List.forall₂_map_right_iff, List.forall₂_same]
    exact fun view _ => view.shownBy_toJson

theorem answer_handle_fetch {library : Library}
    (h : Catalog.ofLibrary library = .ok service.catalog) {path : Path} {view : GroupView}
    (hview : service.catalog.groupView path = .ok view) :
    (session.handle service circumstances (.fetch path)).answer =
      .ok (some (fetchResponse path (service.mark view))) := by
  obtain ⟨-, group, -, hgroup, -⟩ := Catalog.of_groupView_eq_ok hview
  obtain ⟨key, collection, hhead, hcollection⟩ := Catalog.exists_collection_ofLibrary h hgroup
  simp [handle, fetchData, hhead, hcollection, hview, respondWith, respond, fetchResponse, bind,
    Except.bind, pure, Except.pure, Tag.name]

theorem groupView_of_answer_handle_fetch {path : Path} {response : Option Response}
    (h : (session.handle service circumstances (.fetch path)).answer = .ok response) :
    ∃ view, service.catalog.groupView path = .ok view := by
  cases hdata : fetchData service path with
  | error e =>
    simp only [handle, hdata, respondWith] at h
    cases h
  | ok data =>
    unfold fetchData at hdata
    split at hdata
    · dsimp only at hdata
      split at hdata
      · cases hdata
      · obtain ⟨view, hview, -⟩ := bind_eq_ok_iff.1 hdata
        exact ⟨view, hview⟩
    · cases hdata

theorem answer_handle_fetchPathList (list : FlagList) :
    (session.handle service circumstances (.fetchPathList list.name)).answer =
      .ok (some (pathListResponse list.name
        (service.catalog.expandPaths (service.flaggedRoots list)))) := by
  cases list <;> rfl

end Session

/-! ### Marks of views -/

/-- The view shows the marks that the latest markings gave the group and each of its children. -/
structure GroupView.ShowsMarks (view : GroupView) (markings : List Marking) : Prop where
  favourite_iff : view.favourite = true ↔
    Marking.latest? markings .favourite view.path = some true
  checklist_iff : view.checklist = true ↔
    Marking.latest? markings .checklist view.path = some true
  children : ∀ child ∈ view.groups,
    (child.favourite = true ↔
      Marking.latest? markings .favourite (view.path.child child.key) = some true) ∧
    (child.checklist = true ↔
      Marking.latest? markings .checklist (view.path.child child.key) = some true)

namespace Service

variable {service : Service} {markings : List Marking}

theorem MarkedBy.showsMarks (h : service.MarkedBy markings) (view : GroupView) :
    (service.mark view).ShowsMarks markings := by
  refine ⟨h.contains_iff .favourite view.path, h.contains_iff .checklist view.path, ?_⟩
  intro child hchild
  obtain ⟨unmarked, -, rfl⟩ := List.mem_map.1 hchild
  exact ⟨h.contains_iff .favourite _, h.contains_iff .checklist _⟩

theorem map_key_mark (service : Service) (view : GroupView) :
    (service.mark view).groups.map ChildView.key = view.groups.map ChildView.key := by
  rw [mark, GroupView.mark, List.map_map]
  rfl

theorem MarkedBy.mem_flaggedRoots (h : service.MarkedBy markings) {list : FlagList} {path : Path} :
    path ∈ service.flaggedRoots list ↔ path ∈ service.catalog.childPaths service.anchor ∧
      ∃ below, path <+: below ∧ Marking.latest? markings list below = some true := by
  simp only [flaggedRoots, List.mem_filter, Flags.anyUnder_iff, h list, and_comm]

end Service

namespace System

variable {system : System} {service : Service} {session : Session} {past : List Marking}
  {connection : Nat} {fresh : Uuid} {now : Time.Instant} {frame : String} {command : Command}

/-! ### Runs -/

/-- The marking that a step asks for: a connection that runs sends a frame. -/
def marking? (system : System) : Step → Option Marking
  | .receive connection _ _ inbound =>
    if connection ∈ system.sessions then inbound.marking? else none
  | _ => none

/-- The markings of a run, whichever connections send them. -/
def markings (system : System) : List Step → List Marking
  | [] => []
  | step :: rest => (system.marking? step).toList ++ (system.step step).markings rest

/-- **The flags are as the run marked them**, and what they are shown for is as it was. -/
structure Annotated (service : Service) (past : List Marking) (system : System) : Prop where
  registered : system.Registered
  surroundings : system.service.SameSurroundings service
  marked : system.service.MarkedBy past

theorem annotated_start (service : Service) : Annotated service []
    { service := { service with players := ∅, favourites := ∅, checklist := ∅ } } :=
  ⟨registered_start { service with favourites := ∅, checklist := ∅ }, ⟨rfl, rfl⟩,
    Service.markedBy_nil fun list => by cases list <;> rfl⟩

theorem Annotated.step (h : Annotated service past system) (step : Step) :
    Annotated service (past ++ (system.marking? step).toList) (system.step step) := by
  have hregistered := h.registered.step step
  cases step with
  | connect | mute | save =>
    simp only [marking?, Option.toList_none, List.append_nil]
    exact ⟨hregistered, h.surroundings, h.marked⟩
  | receive connection fresh now inbound =>
    cases hsession : system.sessions[connection]? with
    | none =>
      have hmem : connection ∉ system.sessions := fun hmem => by
        obtain ⟨session, hsome⟩ := Map.exists_getElem? hmem
        rw [hsession] at hsome
        cases hsome
      have hstay : system.step (.receive connection fresh now inbound) = system := by
        simp only [System.step, hsession]
      rw [marking?, if_neg hmem, Option.toList_none, List.append_nil, hstay]
      exact h
    | some session =>
      rw [step_receive hsession] at hregistered ⊢
      rw [marking?, if_pos (Map.mem_of_getElem? hsession)]
      have hmoves := session.moves_step system.service (system.circumstances fresh now) inbound
      have hmarked :=
        Session.markedBy_step h.marked session (system.circumstances fresh now) inbound
      refine ⟨hregistered, ?_, ?_⟩
      · rw [service_settle]
        exact hmoves.surroundings.trans h.surroundings
      · rw [service_settle]
        exact hmarked

theorem Annotated.run (h : Annotated service past system) (steps : List Step) :
    Annotated service (past ++ system.markings steps) (system.run steps) := by
  induction steps generalizing past system with
  | nil => simpa [System.markings, System.run] using h
  | cons step rest ih =>
    have hrun := ih (h.step step)
    rw [List.append_assoc] at hrun
    exact hrun

/-! ### Answers -/

theorem Annotated.sent_answer (h : Annotated service past system)
    (hsession : system.sessions[connection]? = some session) (hopen : connection ∉ system.muted)
    (hcommand : Command.ofText frame = .ok command)
    (hforward : ∀ key action, command ≠ .forward key action) {response : Response}
    (hanswer : (session.handle system.service (system.circumstances fresh now) command).answer =
      .ok (some response)) :
    (system.step (.receive connection fresh now (.text frame))).sent =
      system.sent ++ [(connection, response)] := by
  have hid := (h.registered.session_id connection session hsession).1
  have hisOpen : (system.circumstances fresh now).isOpen session.id = true := by
    rw [circumstances, hid, Bool.not_eq_true', ← Bool.not_eq_true, Std.ExtTreeSet.contains_iff_mem]
    exact hopen
  rw [step_receive hsession, sent_settle,
    Session.sent_step_of_answer hcommand hforward hanswer hisOpen, hid]

theorem Annotated.fetch {library : Library}
    (hlibrary : Catalog.ofLibrary library = .ok service.catalog) (h : Annotated service past system)
    (hsession : system.sessions[connection]? = some session) (hopen : connection ∉ system.muted)
    {path : Path} (hcommand : Command.ofText frame = .ok (.fetch path))
    (hnode : service.catalog.HasNode path) : ∃ response view group,
      (system.step (.receive connection fresh now (.text frame))).sent =
        system.sent ++ [(connection, response)] ∧
      Session.ShowsGroup response path view ∧ view.path = path ∧ service.catalog.group? path = some group ∧
      view.groups.map ChildView.key = group.keys ∧ view.ShowsMarks past := by
  obtain ⟨view, hview⟩ := Catalog.exists_groupView_iff.2 hnode
  obtain ⟨hpath, group, -, hgroup, -, hkeys⟩ := Catalog.of_groupView_eq_ok hview
  rw [← h.surroundings.catalog_eq] at hlibrary hview
  refine ⟨_, system.service.mark view, group, ?_, Session.showsGroup_fetchResponse path _, hpath,
    hgroup, ?_, h.marked.showsMarks view⟩
  · exact h.sent_answer hsession hopen hcommand (by simp)
      (Session.answer_handle_fetch hlibrary hview)
  · rw [Service.map_key_mark, hkeys]

theorem Annotated.fetch_of_not_hasNode (h : Annotated service past system)
    (hsession : system.sessions[connection]? = some session) {path : Path}
    (hcommand : Command.ofText frame = .ok (.fetch path))
    (hnode : ¬ service.catalog.HasNode path) :
    (system.step (.receive connection fresh now (.text frame))).sent = system.sent := by
  rw [step_receive hsession, sent_settle]
  cases hanswer : (session.handle system.service (system.circumstances fresh now)
      (.fetch path)).answer with
  | error failure => rw [Session.sent_step_of_failure hcommand hanswer, List.append_nil]
  | ok response =>
    have hview := Session.groupView_of_answer_handle_fetch hanswer
    rw [h.surroundings.catalog_eq] at hview
    exact absurd (Catalog.exists_groupView_iff.1 hview) hnode

theorem Annotated.fetchPathList (hdistinct : service.catalog.KeysDistinct)
    (h : Annotated service past system)
    (hsession : system.sessions[connection]? = some session) (hopen : connection ∉ system.muted)
    {list : FlagList} (hcommand : Command.ofText frame = .ok (.fetchPathList list.name)) :
    ∃ response views, (system.step (.receive connection fresh now (.text frame))).sent =
        system.sent ++ [(connection, response)] ∧ Session.ShowsList response list.name views ∧
      (views.map GroupView.path).Sublist (service.catalog.childPaths service.anchor) ∧
      (views.map GroupView.path).Nodup ∧
      (∀ view ∈ views, service.catalog.groupView view.path = .ok view) ∧
      ∀ path, path ∈ views.map GroupView.path ↔
        path ∈ service.catalog.childPaths service.anchor ∧ service.catalog.HasNode path ∧
        ∃ below, path <+: below ∧ Marking.latest? past list below = some true := by
  obtain ⟨hcatalog, hanchor⟩ := h.surroundings
  have hroots : (system.service.flaggedRoots list).Sublist
      (service.catalog.childPaths service.anchor) := by
    rw [← hcatalog, ← hanchor]
    exact List.filter_sublist
  have hsublist := (Catalog.map_path_expandPaths_sublist service.catalog
    (system.service.flaggedRoots list)).trans hroots
  refine ⟨_, service.catalog.expandPaths (system.service.flaggedRoots list), ?_,
    Session.showsList_pathListResponse list.name _, hsublist,
    hsublist.nodup (Catalog.nodup_childPaths hdistinct service.anchor),
    fun view hview => (Catalog.mem_expandPaths.1 hview).2, fun path => ?_⟩
  · rw [← hcatalog]
    exact h.sent_answer hsession hopen hcommand (by simp) (Session.answer_handle_fetchPathList list)
  · rw [Catalog.mem_map_path_expandPaths, h.marked.mem_flaggedRoots, hcatalog, hanchor]
    tauto

/-- **Flags are last-writer maps across connections.** In any run of a service whose catalog is that
of a library, from no connections and no flags: a connection that fetches a group is shown its keys
in order, with marks for the group and for each child that the latest frame for just that path set;
a path without a group of one kind is not answered. A connection that fetches a list is shown, once
each and in the order of their keys, those children of the anchor that are groups of one kind and
have a path at or below them whose latest frame set its mark. What is shown is found in the response that
is sent, by the names of its members. What is marked in a list depends on the frames for that list
alone. -/
theorem marks_shown (service : Service) (library : Library)
    (hlibrary : Catalog.ofLibrary library = .ok service.catalog) (steps : List Step) :
    let start : System :=
      { service := { service with players := ∅, favourites := ∅, checklist := ∅ } }
    let system := start.run steps
    let markings := start.markings steps
    (∀ connection fresh now frame path, connection ∈ system.sessions → connection ∉ system.muted →
      Command.ofText frame = .ok (.fetch path) →
      let after := system.step (.receive connection fresh now (.text frame))
      (service.catalog.HasNode path → ∃ response view group,
        after.sent = system.sent ++ [(connection, response)] ∧
        Session.ShowsGroup response path view ∧
        view.path = path ∧ service.catalog.group? path = some group ∧
        view.groups.map ChildView.key = group.keys ∧ view.ShowsMarks markings) ∧
      (¬ service.catalog.HasNode path → after.sent = system.sent)) ∧
    (∀ connection fresh now frame (list : FlagList), connection ∈ system.sessions →
      connection ∉ system.muted → Command.ofText frame = .ok (.fetchPathList list.name) →
      let after := system.step (.receive connection fresh now (.text frame))
      ∃ response views, after.sent = system.sent ++ [(connection, response)] ∧
        Session.ShowsList response list.name views ∧
        (views.map GroupView.path).Sublist (service.catalog.childPaths service.anchor) ∧
        (views.map GroupView.path).Nodup ∧
        (∀ view ∈ views, service.catalog.groupView view.path = .ok view) ∧
        ∀ path, path ∈ views.map GroupView.path ↔
          path ∈ service.catalog.childPaths service.anchor ∧ service.catalog.HasNode path ∧
          ∃ below, path <+: below ∧ Marking.latest? markings list below = some true) ∧
    ∀ (list : FlagList) (others : List Step),
      markings.filter (·.list = list) = (start.markings others).filter (·.list = list) →
      system.service.flags list = (start.run others).service.flags list := by
  intro start system markings
  have h : ∀ steps, Annotated service (start.markings steps) (start.run steps) := fun steps => by
    have hrun := (annotated_start service).run steps
    rwa [List.nil_append] at hrun
  refine ⟨?_, ?_, fun list others hsame => (h steps).marked.flags_eq (h others).marked hsame⟩
  · intro connection fresh now frame path hmem hopen hcommand after
    obtain ⟨session, hsession⟩ := Map.exists_getElem? hmem
    exact ⟨(h steps).fetch hlibrary hsession hopen hcommand,
      (h steps).fetch_of_not_hasNode hsession hcommand⟩
  · intro connection fresh now frame list hmem hopen hcommand after
    obtain ⟨session, hsession⟩ := Map.exists_getElem? hmem
    exact (h steps).fetchPathList (Catalog.keysDistinct_ofLibrary hlibrary) hsession hopen hcommand

/-- One connection clears the flag of the disc on the shelf and another one sets it afterwards: the
first is shown the disc as a favourite. -/
theorem marks_shown_disc :
    let now := ⟨⟨2024, 1, 1⟩, 0, 0, 0, by decide⟩
    let clear := "\x7b\"Action\":\"SET_FAVOURITE\",\"Data\":" ++
      "\x7b\"path\":[\"shelf\",\"disc\"],\"value\":false\x7d\x7d"
    let like := "\x7b\"Action\":\"SET_FAVOURITE\",\"Data\":" ++
      "\x7b\"path\":[\"shelf\",\"disc\"],\"value\":true\x7d\x7d"
    let fetch := "\x7b\"Action\":\"FETCH\",\"Data\":\x7b\"path\":[\"shelf\"]\x7d\x7d"
    let list := "\x7b\"Action\":\"FETCH_PATHLIST\",\"Data\":\x7b\"name\":\"favourite\"\x7d\x7d"
    let steps := [.connect, .connect, .receive 0 ⟨0⟩ now (.text clear),
      .receive 1 ⟨0⟩ now (.text like)]
    ∃ catalog, Catalog.ofLibrary .house = .ok catalog ∧
    let system := System.run { service := .start catalog "shelf" } steps
    0 ∈ system.sessions ∧ 0 ∉ system.muted ∧ catalog.HasNode ["shelf"] ∧
    (∃ response item children, (system.step (.receive 0 ⟨0⟩ now (.text fetch))).sent =
        system.sent ++ [(0, response)] ∧ response.data.member? "Item" = some item ∧
      item.member? "Groups" = some (.array children) ∧
      ∃ child ∈ children, child.member? "Key" = some (.string "disc") ∧
        child.member? "Favourite" = some (.bool true)) ∧
    ∃ response items, (system.step (.receive 0 ⟨0⟩ now (.text list))).sent =
        system.sent ++ [(0, response)] ∧ response.data.member? "Data" = some (.array items) ∧
      ∃ item ∈ items, item.member? "Path" = some (.array [.string "shelf", .string "disc"]) := by
  intro now clear like fetch list steps
  have hclear : Command.ofText clear = .ok (.setFlag .favourite ["shelf", "disc"] false) := by
    simp only [clear]
    decide +kernel
  have hlike : Command.ofText like = .ok (.setFlag .favourite ["shelf", "disc"] true) := by
    simp only [like]
    decide +kernel
  have hfetch : Command.ofText fetch = .ok (.fetch ["shelf"]) := by
    simp only [fetch]
    decide +kernel
  have hlist : Command.ofText list = .ok (.fetchPathList "favourite") := by
    simp only [list]
    decide +kernel
  obtain ⟨catalog, hcatalog, hshelf, hdisc⟩ : ∃ catalog, Catalog.ofLibrary .house = .ok catalog ∧
      catalog.group? ["shelf"] = some ⟨"shelf", ["disc", "box"], []⟩ ∧
      catalog.group? ["shelf", "disc"] =
        some ⟨"disc", [], [Library.house.track "prelude", Library.house.track "fugue"]⟩ :=
    ⟨_, rfl, by decide +kernel, by decide +kernel⟩
  have hnode : catalog.HasNode ["shelf"] := ⟨_, hshelf, by decide⟩
  have hleaf : catalog.HasNode ["shelf", "disc"] := ⟨_, hdisc, by simp⟩
  refine ⟨catalog, hcatalog, ?_⟩
  intro system
  have hmem : 0 ∈ system.sessions := by
    simp [system, steps, System.run, System.step, settle, report, Session.step, Session.settle,
      Session.handle, hclear, hlike]
  have hopen : 0 ∉ system.muted := by
    simp [system, steps, System.run, System.step, settle, report, Session.step, Session.settle,
      Session.handle, hclear, hlike]
  have hmarkings : markings { service := .start catalog "shelf" } steps =
      [⟨.favourite, ["shelf", "disc"], false⟩, ⟨.favourite, ["shelf", "disc"], true⟩] := by
    simp [steps, markings, marking?, Session.Inbound.marking?, Command.marking?, System.step,
      settle, report, Session.step, Session.settle, Session.handle, hclear, hlike]
  have hmarked : Marking.latest? (markings { service := .start catalog "shelf" } steps) .favourite
      ["shelf", "disc"] = some true := by
    rw [hmarkings]
    decide
  obtain ⟨hfetched, hlisted, -⟩ := marks_shown (.start catalog "shelf") .house hcatalog steps
  obtain ⟨response, view, group, hsent, ⟨-, -, item, hitem, hshown⟩, hpath, hgroup, hkeys, hmarks⟩ :=
    (hfetched 0 ⟨0⟩ now fetch ["shelf"] hmem hopen hfetch).1 hnode
  obtain ⟨listResponse, views, hsentList, ⟨-, -, items, hitems, hlisted⟩, -, -, -, hroots⟩ :=
    hlisted 0 ⟨0⟩ now list .favourite hmem hopen hlist
  refine ⟨hmem, hopen, hnode, ?_, listResponse, items, hsentList, hitems, ?_⟩
  · obtain ⟨children, hchildren, hshownChildren⟩ := hshown.groups
    refine ⟨response, item, children, hsent, hitem, hchildren, ?_⟩
    have hdiscKey : "disc" ∈ view.groups.map ChildView.key := by
      rw [hkeys, Option.some.inj (hgroup.symm.trans hshelf)]
      exact List.mem_cons_self
    obtain ⟨child, hchild, hkey⟩ := List.mem_map.1 hdiscKey
    have hfavourite : child.favourite = true := by
      refine (hmarks.children child hchild).1.2 ?_
      rw [hpath, hkey]
      exact hmarked
    obtain ⟨shown, hshownMem, hshownChild⟩ := exists_mem_of_forall₂ hshownChildren hchild
    exact ⟨shown, hshownMem, hkey ▸ hshownChild.key, hfavourite ▸ hshownChild.favourite⟩
  · have hroot : ["shelf", "disc"] ∈ views.map GroupView.path := by
      refine (hroots _).2 ⟨?_, hleaf, ["shelf", "disc"], List.prefix_rfl, hmarked⟩
      have hchildren : catalog.childPaths ["shelf"] = [["shelf", "disc"], ["shelf", "box"]] := by
        simp [Catalog.childPaths, hshelf, Path.child]
      change ["shelf", "disc"] ∈ catalog.childPaths ["shelf"]
      rw [hchildren]
      exact List.mem_cons_self
    obtain ⟨root, hmemRoot, hrootPath⟩ := List.mem_map.1 hroot
    obtain ⟨shown, hshownMem, hshownRoot⟩ := exists_mem_of_forall₂ hlisted hmemRoot
    refine ⟨shown, hshownMem, ?_⟩
    rw [hshownRoot.path, hrootPath]
    rfl

end System

end Jukebox

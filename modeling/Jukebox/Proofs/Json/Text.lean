import Jukebox.Proofs.Json.Codec
import Jukebox.Proofs.Json.Token

/-!
Values are read back from their texts, in either layout. `Assembles` says how a text leads from one state
of the assembly to another, token by token; the text of a value leads from wherever a value may come to
where the value has been put.

The numbers of such a value are integers that fit a word. Real numbers are left out: the digits that are
written for one need not be read as the same number.
-/

namespace Jukebox.Json

/-! ### Assembling a text -/

namespace Source

open Token (Ends)

variable {text rest : List Char} {first next last state : Assembly} {token : Token} {source : Source}

/-- A text leads from one state of the assembly to another, token by token. -/
inductive Assembles : List Char → Assembly → Assembly → Prop
  | nil {state : Assembly} : Assembles [] state state
  | space {c : Char} {text : List Char} {first last : Assembly} (hspace : Token.isSpace c = true)
      (hrest : Assembles text first last) : Assembles (c :: text) first last
  | mark {c : Char} {text : List Char} {token : Token} {first next last : Assembly}
      (htoken : Token.ofMark? c = some token) (hstep : assemble? first token = some next)
      (hrest : Assembles text next last) : Assembles (c :: text) first last
  | literal {text : List Char} {first next last : Assembly} (s : String)
      (hstep : assemble? first (.string (some s)) = some next) (hrest : Assembles text next last) :
      Assembles ((quote s).toList ++ text) first last
  | word {word text : List Char} {token : Token} {first next last : Assembly}
      (hword : ∀ c ∈ word, Token.isBare c = true) (htoken : Token.ofBare? word = some token)
      (hends : Ends text) (hstep : assemble? first token = some next)
      (hrest : Assembles text next last) : Assembles (word ++ text) first last

theorem Assembles.append (htext : Assembles text first next) (hrest : Assembles rest next last)
    (hends : Ends rest) : Assembles (text ++ rest) first last := by
  induction htext with
  | nil => exact hrest
  | space hspace _ ih => exact .space hspace (ih hrest)
  | mark htoken hstep _ ih => exact .mark htoken hstep (ih hrest)
  | literal s hstep _ ih =>
    rw [List.append_assoc]
    exact .literal s hstep (ih hrest)
  | word hword htoken hwordEnds hstep _ ih =>
    rw [List.append_assoc]
    exact .word hword htoken (hwordEnds.append hends) hstep (ih hrest)

/-- Such a text has tokens, whatever came before it, and they are assembled that way. -/
theorem Assembles.exists_tokens (h : Assembles text first last) :
    ∃ tokens, (∀ done, Token.Reader.tokens? ⟨done, .between⟩ text = some (done.reverse ++ tokens)) ∧
      tokens.foldlM assemble? first = some last := by
  have hcons {token : Token} {tokens : List Token} {first next last : Assembly}
      (hstep : assemble? first token = some next)
      (hfold : tokens.foldlM assemble? next = some last) :
      (token :: tokens).foldlM assemble? first = some last := by
    rw [List.foldlM_cons, hstep]
    exact hfold
  induction h with
  | nil => exact ⟨[], fun done => by rw [List.append_nil]; rfl, rfl⟩
  | space hspace _ ih =>
    obtain ⟨tokens, hread, hfold⟩ := ih
    exact ⟨tokens, fun done => (Token.Reader.tokens?_space hspace).trans (hread done), hfold⟩
  | mark htoken hstep _ ih =>
    obtain ⟨tokens, hread, hfold⟩ := ih
    refine ⟨_ :: tokens, fun done => ?_, hcons hstep hfold⟩
    rw [Token.Reader.tokens?_mark htoken, hread]
    simp
  | literal s hstep _ ih =>
    obtain ⟨tokens, hread, hfold⟩ := ih
    refine ⟨_ :: tokens, fun done => ?_, hcons hstep hfold⟩
    rw [Token.Reader.tokens?_quote, hread]
    simp
  | word hword htoken hends hstep _ ih =>
    obtain ⟨tokens, hread, hfold⟩ := ih
    refine ⟨_ :: tokens, fun done => ?_, hcons hstep hfold⟩
    rw [Token.Reader.tokens?_word hword hends htoken, hread]
    simp

/-- A text that leads from the start to a whole source is read as that source. -/
theorem Assembles.ofText? {text : String} {whole : Source}
    (h : Assembles text.toList ⟨[], .value⟩ ⟨[], .finished whole⟩) : ofText? text = some whole := by
  obtain ⟨tokens, hread, hfold⟩ := h.exists_tokens
  have htokens : Token.ofText? text.toList = some tokens := hread []
  simp [Source.ofText?, htokens, hfold]

/-! ### Places of values -/

/-- A value may come next. -/
def Assembly.TakesValue (state : Assembly) : Prop :=
  state.expecting = .value ∨ state.expecting = .valueOrEnd

theorem Assembly.TakesValue.assemble? (h : state.TakesValue) (token : Token)
    (hplace : placeToken? state.frames token = some next) :
    Source.assemble? state token = some next := by
  obtain ⟨frames, expecting⟩ := state
  rcases h with rfl | rfl
  · rw [← hplace]
    rfl
  · rw [← hplace]
    cases token <;> cases hplace <;> simp [Source.assemble?]

/-- The text puts a source where a value may come. -/
def Puts (text : List Char) (source : Source) : Prop :=
  ∀ state : Assembly, state.TakesValue → Assembles text state (place state.frames source)

theorem puts_word (token : Token) {word : List Char} (hword : ∀ c ∈ word, Token.isBare c = true)
    (htoken : Token.ofBare? word = some token)
    (hplace : ∀ frames, placeToken? frames token = some (place frames source)) :
    Puts word source := by
  intro state hstate
  have hends : Ends [] := by simp [Ends]
  have h := Assembles.word hword htoken hends
    (hstate.assemble? token (hplace state.frames)) .nil
  rwa [List.append_nil] at h

theorem puts_quote (s : String) : Puts (quote s).toList (.string s) := by
  intro state hstate
  have h := Assembles.literal s (hstate.assemble? (.string (some s)) rfl) .nil
  rwa [List.append_nil] at h

/-! ### Layouts -/

/-- Nothing but spaces. -/
def Gap (gap : List Char) : Prop := ∀ c ∈ gap, Token.isSpace c = true

variable {gap : List Char}

theorem Gap.ends (h : Gap gap) : Ends gap :=
  fun c hc => Token.isBare_of_isSpace (h c (List.mem_of_mem_head? hc))

theorem Assembles.behindGap (hgap : Gap gap) (hrest : Assembles text first last) :
    Assembles (gap ++ text) first last := by
  induction gap with
  | nil => exact hrest
  | cons c gap ih =>
    exact .space (hgap c List.mem_cons_self) (ih fun d hd => hgap d (List.mem_cons_of_mem _ hd))

/-- Parts behind commas. -/
def behindCommas (gap : List Char) (parts : List String) : List Char :=
  parts.flatMap fun part => ',' :: (gap ++ part.toList)

theorem ends_behindCommas (parts : List String) : Ends (behindCommas gap parts) := by
  cases parts with
  | nil => simp [Ends, behindCommas]
  | cons part rest =>
    intro c hc
    cases hc
    rfl

theorem toList_intercalate_comma (separator part : String) (parts : List String) :
    (("," ++ separator).intercalate (part :: parts)).toList =
      part.toList ++ behindCommas separator.toList parts := by
  induction parts generalizing part with
  | nil => simp [behindCommas]
  | cons other parts ih =>
    rw [String.intercalate_cons_cons, String.toList_append, String.toList_append, ih]
    simp [behindCommas]

theorem gap_pushn (n : Nat) : Gap ("".pushn ' ' n).toList := by
  rw [String.pushn_eq_repeat_push]
  induction n with
  | zero => simp [Nat.repeat, Gap]
  | succ n ih =>
    rw [Nat.repeat, String.toList_push]
    exact List.forall_mem_append.2 ⟨ih, List.forall_mem_singleton.2 rfl⟩

/-- Between brackets there are the parts, with the same gap before each of them, and a last gap. -/
theorem exists_bracket (opening closing : String) (indent : Option Nat) (part : String)
    (parts : List String) : ∃ gap lastGap, Gap gap ∧ Gap lastGap ∧
      (bracket opening closing indent (part :: parts)).toList = opening.toList ++
        (gap ++ (part.toList ++ (behindCommas gap parts ++ (lastGap ++ closing.toList)))) := by
  unfold bracket
  rw [if_neg (by simp)]
  cases indent with
  | none =>
    have hparts := toList_intercalate_comma "" part parts
    rw [String.append_empty] at hparts
    refine ⟨[], [], by simp [Gap], by simp [Gap], ?_⟩
    simp only [String.toList_append, hparts, List.append_assoc, List.nil_append]
    rfl
  | some level =>
    have hline : Gap ("\n" ++ "".pushn ' ' (2 * level)).toList := by
      rw [String.toList_append]
      exact List.forall_mem_cons.2 ⟨rfl, gap_pushn _⟩
    refine ⟨("\n" ++ "".pushn ' ' (2 * level) ++ "  ").toList, _, ?_, hline, ?_⟩
    · rw [String.toList_append]
      exact List.forall_mem_append.2 ⟨hline, List.all_eq_true.1 rfl⟩
    · have hparts := toList_intercalate_comma ("\n" ++ "".pushn ' ' (2 * level) ++ "  ") part parts
      rw [← String.append_assoc] at hparts
      simp only [String.toList_append, hparts, List.append_assoc]

/-! ### Arrays and objects -/

/-- The states of the assembly at a pair of brackets: before and behind the opening one, between them
with some parts, the last in front, and behind the closing one. -/
structure Enclosure (β : Type) where
  opening : Char
  closing : Char
  before : Assembly
  begun : Assembly
  within : List β → Assembly
  whole : List β → Assembly
  opens : ∃ token, Token.ofMark? opening = some token ∧ assemble? before token = some begun
  closes : ∃ token, Token.ofMark? closing = some token ∧
    assemble? begun token = some (whole []) ∧
    ∀ done, assemble? (within done) token = some (whole done.reverse)

section

variable {α β : Type} {write : α → String} {part : α → β} {items : List α}

/-- Items behind commas are added, one by one, to the parts that are there. -/
theorem Enclosure.assembles_behindCommas (enclosure : Enclosure β)
    (h : ∀ item ∈ items, ∀ done, Assembles (',' :: (gap ++ (write item).toList))
      (enclosure.within done) (enclosure.within (part item :: done))) (done : List β) :
    Assembles (behindCommas gap (items.map write)) (enclosure.within done)
      (enclosure.within ((items.map part).reverse ++ done)) := by
  induction items generalizing done with
  | nil => exact .nil
  | cons item rest ih =>
    have hitem := h item List.mem_cons_self done
    have hrest := ih (fun other hother => h other (List.mem_cons_of_mem _ hother))
      (part item :: done)
    have hparts : ((item :: rest).map part).reverse ++ done =
        (rest.map part).reverse ++ part item :: done := by
      simp
    rw [hparts]
    exact hitem.append hrest (ends_behindCommas _)

/-- The first item leads from behind the opening bracket to one part and each further one, behind its
comma, adds a part. Then the brackets with all items between them put the whole. -/
theorem Enclosure.assembles (enclosure : Enclosure β)
    (hfirst : ∀ item ∈ items,
      Assembles (write item).toList enclosure.begun (enclosure.within [part item]))
    (hnext : ∀ gap, Gap gap → ∀ item ∈ items, ∀ done,
      Assembles (',' :: (gap ++ (write item).toList)) (enclosure.within done)
        (enclosure.within (part item :: done))) (indent : Option Nat) :
    Assembles (bracket (.singleton enclosure.opening) (.singleton enclosure.closing) indent
      (items.map write)).toList enclosure.before (enclosure.whole (items.map part)) := by
  obtain ⟨opened, hopened, hopen⟩ := enclosure.opens
  obtain ⟨closed, hclosed, hempty, hclose⟩ := enclosure.closes
  cases items with
  | nil =>
    simp only [bracket, List.map_nil, List.isEmpty_nil, if_true, String.toList_append,
      String.toList_singleton]
    exact .mark hopened hopen (.mark hclosed hempty .nil)
  | cons item rest =>
    obtain ⟨gap, lastGap, hgap, hlastGap, htext⟩ := exists_bracket (.singleton enclosure.opening)
      (.singleton enclosure.closing) indent (write item) (rest.map write)
    have hitem := hfirst item List.mem_cons_self
    have hrest := enclosure.assembles_behindCommas
      (fun other hother => hnext gap hgap other (List.mem_cons_of_mem _ hother)) [part item]
    have hlast : Assembles (lastGap ++ [enclosure.closing])
        (enclosure.within ((rest.map part).reverse ++ [part item]))
        (enclosure.whole ((item :: rest).map part)) := by
      refine .behindGap hlastGap (.mark hclosed ?_ .nil)
      rw [hclose]
      simp
    have hends : Ends (lastGap ++ [enclosure.closing]) := by
      refine hlastGap.ends.append fun c hc => ?_
      cases hc
      exact Token.isBare_of_ofMark? hclosed
    rw [List.map_cons, htext, String.toList_singleton, String.toList_singleton,
      List.singleton_append]
    exact .mark hopened hopen (.behindGap hgap
      (hitem.append (hrest.append hlast hends) ((ends_behindCommas _).append hends)))

end

variable {α : Type} {write : α → String} {source : α → Source} {items : List α}

/-- The brackets of an array, where a value may come. -/
def Enclosure.array (hstate : state.TakesValue) : Enclosure Source where
  opening := '['
  closing := ']'
  before := state
  begun := ⟨.array [] :: state.frames, .valueOrEnd⟩
  within done := ⟨.array done :: state.frames, .separator⟩
  whole items := place state.frames (.array items)
  opens := ⟨.openArray, rfl, hstate.assemble? .openArray rfl⟩
  closes := ⟨.closeArray, rfl, rfl, fun _ => rfl⟩

theorem puts_array (h : ∀ item ∈ items, Puts (write item).toList (source item))
    (indent : Option Nat) :
    Puts (bracket "[" "]" indent (items.map write)).toList (.array (items.map source)) := by
  intro state hstate
  refine (Enclosure.array hstate).assembles (fun item hitem => h item hitem _ (.inr rfl))
    (fun gap hgap item hitem done => ?_) indent
  have hitem := h item hitem ⟨.array done :: state.frames, .value⟩ (.inl rfl)
  exact .mark rfl rfl (.behindGap hgap hitem)

/-- The brackets of an object, where a value may come. -/
def Enclosure.object (hstate : state.TakesValue) : Enclosure (Option String × Source) where
  opening := '\x7b'
  closing := '\x7d'
  before := state
  begun := ⟨state.frames, .nameOrEnd⟩
  within done := ⟨.object done none :: state.frames, .separator⟩
  whole members := place state.frames (.object members)
  opens := ⟨.openObject, rfl, hstate.assemble? .openObject rfl⟩
  closes := ⟨.closeObject, rfl, rfl, fun _ => rfl⟩

theorem puts_object {name : α → String} {colon : String}
    (hcolon : ∃ gap, Gap gap ∧ colon.toList = ':' :: gap)
    (h : ∀ item ∈ items, Puts (write item).toList (source item)) (indent : Option Nat) :
    Puts (bracket "\x7b" "\x7d" indent
        (items.map fun item => quote (name item) ++ colon ++ write item)).toList
      (.object (items.map fun item => (some (name item), source item))) := by
  intro state hstate
  obtain ⟨colonGap, hcolonGap, hcolon⟩ := hcolon
  -- the value behind a name that has been read
  have hvalue {item : α} (hitem : item ∈ items) (done : List (Option String × Source)) :
      Assembles (colon.toList ++ (write item).toList) ⟨state.frames, .colon done (name item)⟩
        ((Enclosure.object hstate).within ((some (name item), source item) :: done)) := by
    have hitem := h item hitem ⟨.object done (name item) :: state.frames, .value⟩ (.inl rfl)
    rw [hcolon]
    exact .mark rfl rfl (.behindGap hcolonGap hitem)
  refine (Enclosure.object hstate).assembles (fun item hitem => ?_)
    (fun gap hgap item hitem done => ?_) indent
  · rw [String.toList_append, String.toList_append, List.append_assoc]
    exact .literal _ rfl (hvalue hitem [])
  · rw [String.toList_append, String.toList_append, List.append_assoc]
    exact .mark rfl rfl (.behindGap hgap (.literal _ rfl (hvalue hitem done)))

end Source

/-! ### Values -/

variable {value : Json}

theorem writeItems_eq_map (indent : Option Nat) (items : List Json) :
    writeItems indent items = items.map (write indent) := by
  induction items with
  | nil => rfl
  | cons item rest ih => rw [writeItems, ih, List.map_cons]

theorem writeMembers_eq_map (indent : Option Nat) (members : List (String × Json)) :
    writeMembers indent members = members.map fun member =>
      quote member.1 ++ (if indent.isSome then ": " else ":") ++ write indent member.2 := by
  induction members with
  | nil => rfl
  | cons member rest ih => rw [writeMembers, ih, List.map_cons]

/-- The value is read as it was meant: its numbers are integers that fit a word. -/
inductive Exact : Json → Prop
  | null : Exact .null
  | bool (b : Bool) : Exact (.bool b)
  | integer {n : Int} (h : FitsWord n) : Exact (.number (.integer n))
  | string (s : String) : Exact (.string s)
  | array {items : List Json} (h : ∀ item ∈ items, Exact item) : Exact (.array items)
  | object {members : List (String × Json)} (h : ∀ member ∈ members, Exact member.2) :
      Exact (.object members)

/-- The text of a value puts its source, by induction on the value. -/
theorem Exact.puts (h : Exact value) (indent : Option Nat) :
    Source.Puts (value.write indent).toList (.ofJson value) := by
  induction h generalizing indent with
  | null =>
    rw [write]
    exact Source.puts_word .null (List.all_eq_true.1 rfl) rfl fun _ => rfl
  | bool b =>
    cases b <;> rw [write]
    · exact Source.puts_word (.bool false) (List.all_eq_true.1 rfl) rfl fun _ => rfl
    · exact Source.puts_word (.bool true) (List.all_eq_true.1 rfl) rfl fun _ => rfl
  | @integer n hn =>
    exact Source.puts_word (.number (some (.integer n))) (fun _ => Token.isBare_of_mem_toString)
      (Token.ofBare?_toString hn) fun _ => rfl
  | string s => exact Source.puts_quote s
  | array _ ih =>
    rw [write, writeItems_eq_map, Source.ofJson, ofItems_eq_map]
    exact Source.puts_array (fun item hitem => ih item hitem _) indent
  | object _ ih =>
    rw [write, writeMembers_eq_map, Source.ofJson, ofMembers_eq_map]
    refine Source.puts_object ?_ (fun member hmember => ih member hmember _) indent
    split
    · exact ⟨[' '], by simp [Source.Gap, Token.isSpace], rfl⟩
    · exact ⟨[], by simp [Source.Gap], rfl⟩

/-- **Values are read back from their texts.** The text of a value, in either layout, is read as
what writes this value. -/
theorem Exact.ofText?_write (h : Exact value) (indent : Option Nat) :
    Source.ofText? (value.write indent) = some (.ofJson value) :=
  (h.puts indent ⟨[], .value⟩ (.inl rfl)).ofText?

theorem Reads.runText {toJson : α → Json} {a : α} (h : Reads decoder toJson levels a)
    (hlevels : levels ≤ maxDepth) (hexact : Exact (toJson a)) (indent : Option Nat) :
    decoder.runText ((toJson a).write indent) = some a := by
  rw [Decoder.runText, hexact.ofText?_write]
  exact h.run hlevels

end Jukebox.Json

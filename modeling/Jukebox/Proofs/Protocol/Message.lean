import Jukebox.Proofs.Json.Text
import Jukebox.Proofs.Protocol.Grammar

/-!
What the texts of the protocol tell. A response is read back from its text, so that no two responses have
one text. The message of a command that is malformed holds the field that is to blame, or the word that
is not known.
-/

namespace Jukebox

/-! ### Sources and their values -/

namespace Json

theorem eq_of_map_eq_map {write : α → β} {items others : List α}
    (h : ∀ item ∈ items, ∀ other, write item = write other → item = other)
    (hmap : items.map write = others.map write) : items = others := by
  induction items generalizing others with
  | nil => exact (List.map_eq_nil_iff.1 hmap.symm).symm
  | cons item rest ih =>
    cases others with
    | nil => cases hmap
    | cons other others =>
      obtain ⟨hfirst, hrest⟩ := List.cons.inj hmap
      rw [h item List.mem_cons_self other hfirst,
        ih (fun item hitem => h item (List.mem_cons_of_mem _ hitem)) hrest]

/-- A source is written by one value, by induction on the value. -/
theorem Exact.eq_of_ofJson_eq {value other : Json} (h : value.Exact)
    (hsource : Source.ofJson value = .ofJson other) : value = other := by
  induction h generalizing other with
  | null | bool | integer | string => cases other <;> simp_all [Source.ofJson]
  | array _ ih =>
    cases other with
    | array others =>
      rw [Source.ofJson, Source.ofJson, ofItems_eq_map, ofItems_eq_map, Source.array.injEq] at hsource
      rw [eq_of_map_eq_map (fun item hitem _ => ih item hitem) hsource]
    | _ => cases hsource
  | object _ ih =>
    cases other with
    | object others =>
      rw [Source.ofJson, Source.ofJson, ofMembers_eq_map, ofMembers_eq_map,
        Source.object.injEq] at hsource
      rw [object.injEq]
      refine eq_of_map_eq_map (fun member hmember other hother => ?_) hsource
      obtain ⟨hname, hvalue⟩ := Prod.mk.inj hother
      exact Prod.ext (Option.some.inj hname) (ih member hmember hvalue)
    | _ => cases hsource

end Json

namespace Protocol

/-! ### Responses -/

namespace Response

variable {response other : Response}

theorem exact_toJson (h : response.data.Exact) : response.toJson.Exact := by
  refine .object fun member hmember => ?_
  simp only [List.mem_cons, List.not_mem_nil, or_false] at hmember
  rcases hmember with rfl | rfl
  · exact .string _
  · exact h

theorem ofText?_text (h : response.data.Exact) :
    Json.Source.ofText? response.text = some (.ofJson response.toJson) :=
  (exact_toJson h).ofText?_write none

theorem text_inj (h : response.data.Exact) (hother : other.data.Exact)
    (htext : response.text = other.text) : response = other := by
  have hsource := ofText?_text h
  rw [htext, ofText?_text hother] at hsource
  have hjson := (exact_toJson hother).eq_of_ofJson_eq (Option.some.inj hsource)
  simp only [toJson, Json.object.injEq, List.cons.injEq, Prod.mk.injEq, Json.string.injEq] at hjson
  obtain ⟨⟨-, haction⟩, ⟨-, hdata⟩, -⟩ := hjson
  cases response
  cases other
  rw [mk.injEq]
  exact ⟨haction.symm, hdata.symm⟩

end Response

/-! ### Messages of malformed commands -/

/-- What the reason is about: a field, or a word for what to do. -/
def Malformed.subject? : Malformed → Option String
  | frame | binary => none
  | missing field | mistyped field _ _ | notPath field _ => some field
  | playlistVerb verb | cursorVerb verb => some verb

theorem infix_toList_append (before subject after : String) :
    subject.toList <:+: (before ++ (subject ++ after)).toList := by
  rw [String.toList_append, String.toList_append, ← List.append_assoc]
  exact List.infix_append _ _ _

/-- The message holds what the reason is about. -/
theorem Malformed.infix_message {reason : Malformed} {subject : String}
    (h : reason.subject? = some subject) : subject.toList <:+: reason.message.toList := by
  cases reason with
  | frame | binary => cases h
  | missing field | mistyped field expected found | notPath field reason =>
    obtain rfl := Option.some.inj h
    unfold message
    simp only [String.append_assoc]
    exact infix_toList_append _ _ _
  | playlistVerb verb | cursorVerb verb =>
    obtain rfl := Option.some.inj h
    unfold message
    rw [String.toList_append]
    exact (List.suffix_append _ _).isInfix

/-- A word that is not known is what the reason is about. -/
def Kind.NamesWords : Kind → Prop
  | word _ unknown => ∀ w, (unknown w).subject? = some w
  | _ => True

theorem Kind.Blames.exists_subject {field : String} {kind : Kind} {found : Json} {reason : Malformed}
    (h : kind.Blames field found reason) (hkind : kind.NamesWords) :
    ∃ subject, reason.subject? = some subject ∧ (subject = field ∨ found = .string subject) := by
  cases h with
  | unknown known unknown w => exact ⟨w, hkind w, .inr rfl⟩
  | _ => exact ⟨field, rfl, .inl rfl⟩

theorem Tag.namesWords_slots (fields : Fields) (tag : Tag) :
    ∀ slot ∈ tag.slots fields, slot.kind.NamesWords := by
  have hplayer (word : Option String) : ∀ slot ∈ playerSlots word, slot.kind.NamesWords := by
    unfold playerSlots
    split <;> simp [Slot.required, Slot.optional, Kind.NamesWords]
  have hplaylist (word : Option String) : ∀ slot ∈ playlistSlots word, slot.kind.NamesWords := by
    unfold playlistSlots
    split <;> simp [Slot.required, Slot.optional, Kind.NamesWords]
  have hcursor (word : Option String) : ∀ slot ∈ cursorSlots word, slot.kind.NamesWords := by
    unfold cursorSlots
    split <;> simp [Slot.required, Kind.NamesWords]
  cases tag with
  | player => exact List.forall_mem_cons.2 ⟨trivial, hplayer _⟩
  | playlist =>
    exact List.forall_mem_cons.2 ⟨trivial, List.forall_mem_cons.2 ⟨fun _ => rfl, hplaylist _⟩⟩
  | cursor =>
    refine List.forall_mem_append.2 ⟨?_, List.forall_mem_singleton.2 trivial⟩
    exact List.forall_mem_cons.2 ⟨trivial, List.forall_mem_cons.2 ⟨fun _ => rfl, hcursor _⟩⟩
  | _ => simp [slots, Slot.required, Kind.NamesWords]

/-- The message of a command that is malformed holds the name of the first slot that is not filled, or the
word in it that is not known. -/
theorem Command.message_of_ofEnvelope {envelope : Envelope} {tag : Tag} {failure : Failure}
    (htag : tag.name = envelope.action) (h : Command.ofEnvelope envelope = .error failure) :
    ∃ slot ∈ tag.slots envelope.data, ¬ slot.Filled envelope.data ∧
      ∃ subject message, failure.message? = some message ∧ subject.toList <:+: message.toList ∧
        (subject = slot.name ∨ slot.held envelope.data = some (.string subject)) := by
  rw [ofEnvelope_of_name htag] at h
  obtain ⟨reason, ⟨before, slot, after, hslots, -, hunfilled, hblames⟩, rfl⟩ :=
    (readBy_ofFields tag).fails failure h
  have hmem : slot ∈ tag.slots envelope.data := by
    rw [hslots]
    exact List.mem_append_right _ List.mem_cons_self
  refine ⟨slot, hmem, hunfilled, ?_⟩
  unfold Slot.Blames at hblames
  split at hblames
  · rename_i found hheld
    obtain ⟨subject, hsubject, hcases⟩ :=
      hblames.exists_subject (Tag.namesWords_slots _ tag slot hmem)
    refine ⟨subject, reason.message, rfl, Malformed.infix_message hsubject, ?_⟩
    exact hcases.imp_right fun hfound => by rw [hheld, hfound]
  · obtain ⟨-, rfl⟩ := hblames
    exact ⟨slot.name, _, rfl, Malformed.infix_message rfl, .inl rfl⟩

end Protocol

end Jukebox

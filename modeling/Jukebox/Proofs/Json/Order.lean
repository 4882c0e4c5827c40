import Jukebox.Json.Decoder
import Mathlib.Data.String.Basic

/-!
Values in order: those whose objects have their members in ascending order of their names, so that
nothing is left to put in order. Every value that is read is in order. In a value that is put in order the
same members are found as before.
-/

namespace Jukebox.Json

variable {name : String} {value : Json} {members : List (String × Json)}

/-- The value is what it is when it is put in order. -/
def InOrder (value : Json) : Prop := value.sorted = value

/-! ### Members -/

/-- Members in ascending order of their names, with values in order. -/
structure MembersInOrder (members : List (String × Json)) : Prop where
  ascending : members.Pairwise fun first second => first.1 < second.1
  values : ∀ member ∈ members, member.2.InOrder

theorem membersInOrder_nil : MembersInOrder [] := ⟨.nil, by simp⟩

/-- Where a member is put: in front, in place of one of its name, or further on. -/
theorem mem_insertMember {member : String × Json} (h : member ∈ insertMember name value members) :
    member = (name, value) ∨ member ∈ members := by
  induction members with
  | nil => exact .inl (List.mem_singleton.1 h)
  | cons first rest ih =>
    obtain ⟨other, old⟩ := first
    rw [insertMember] at h
    split at h
    · simpa using h
    · split at h
      · exact (List.mem_cons.1 h).imp_right (List.mem_cons_of_mem _)
      · rcases List.mem_cons.1 h with rfl | h
        · exact .inr List.mem_cons_self
        · exact (ih h).imp_right (List.mem_cons_of_mem _)

theorem MembersInOrder.insertMember (h : MembersInOrder members) (hvalue : value.InOrder) :
    MembersInOrder (Json.insertMember name value members) := by
  refine ⟨?_, fun member hmember => ?_⟩
  · -- the induction is on ascending members only, since the values do not matter to their order
    have hascending := h.ascending
    clear h
    induction members with
    | nil => exact List.pairwise_singleton _ _
    | cons first rest ih =>
      obtain ⟨other, old⟩ := first
      obtain ⟨hfirst, hrest⟩ := List.pairwise_cons.1 hascending
      rw [Json.insertMember]
      split
      · rename_i hlt
        exact List.pairwise_cons.2 ⟨fun member hmember => (List.mem_cons.1 hmember).elim
          (fun heq => heq ▸ hlt) fun hmember => hlt.trans (hfirst member hmember), hascending⟩
      · rename_i hnlt
        split
        · rename_i heq
          subst heq
          exact List.pairwise_cons.2 ⟨hfirst, hrest⟩
        · rename_i hne
          refine List.pairwise_cons.2 ⟨fun member hmember => ?_, ih hrest⟩
          rcases mem_insertMember hmember with rfl | hmember
          · exact lt_of_le_of_ne (not_lt.1 hnlt) (Ne.symm hne)
          · exact hfirst member hmember
  · rcases mem_insertMember hmember with rfl | hmember
    · exact hvalue
    · exact h.values member hmember

theorem insertMember_of_forall_lt (h : ∀ member ∈ members, member.1 < name) :
    insertMember name value members = members ++ [(name, value)] := by
  induction members with
  | nil => rfl
  | cons first rest ih =>
    obtain ⟨other, old⟩ := first
    have hlt : other < name := h (other, old) List.mem_cons_self
    rw [insertMember, if_neg hlt.asymm, if_neg hlt.ne',
      ih fun member hmember => h member (List.mem_cons_of_mem _ hmember), List.cons_append]

theorem MembersInOrder.sortedMembers {done : List (String × Json)}
    (h : MembersInOrder (done ++ members)) : sortedMembers done members = done ++ members := by
  induction members generalizing done with
  | nil => simp [Json.sortedMembers]
  | cons first rest ih =>
    obtain ⟨name, value⟩ := first
    have hvalue : value.sorted = value := h.values (name, value) (by simp)
    have hlt : ∀ member ∈ done, member.1 < name := fun member hmember =>
      (List.pairwise_append.1 h.ascending).2.2 member hmember (name, value) List.mem_cons_self
    rw [Json.sortedMembers, hvalue, insertMember_of_forall_lt hlt, ih (by simpa using h)]
    simp

theorem lookup_cons_eq_ite (wanted : String) : ((name, value) :: members).lookup wanted =
    if wanted = name then some value else members.lookup wanted := by
  rw [List.lookup_cons]
  split
  · rename_i h
    rw [if_pos (beq_iff_eq.1 h)]
  · rename_i h
    rw [if_neg (beq_eq_false_iff_ne.1 h)]

/-- A member is put where it is found by its name, and all others are found as before. -/
theorem lookup_insertMember (wanted : String) : (insertMember name value members).lookup wanted =
    if wanted = name then some value else members.lookup wanted := by
  induction members with
  | nil => exact lookup_cons_eq_ite wanted
  | cons first rest ih =>
    obtain ⟨other, old⟩ := first
    rw [insertMember]
    split
    · exact lookup_cons_eq_ite wanted
    · split <;> rename_i hname <;> simp only [lookup_cons_eq_ite, ih]
      · rw [hname]
        split <;> rfl
      · split <;> split <;> simp_all

theorem lookup_sortedMembers (wanted : String) (done : List (String × Json)) :
    (sortedMembers done members).lookup wanted =
      ((members.reverse.lookup wanted).map sorted).or (done.lookup wanted) := by
  induction members generalizing done with
  | nil => rfl
  | cons first rest ih =>
    obtain ⟨name, value⟩ := first
    rw [sortedMembers, ih, lookup_insertMember, List.reverse_cons, List.lookup_append,
      lookup_cons_eq_ite]
    cases rest.reverse.lookup wanted with
    | none => split <;> rfl
    | some last => rfl

/-! ### Values -/

/-- Of several members with one name the last counts. -/
theorem member?_sorted_object (wanted : String) : (object members).sorted.member? wanted =
    (members.reverse.lookup wanted).map sorted := by
  rw [sorted, member?, lookup_sortedMembers, List.lookup_nil, Option.or_none]

theorem MembersInOrder.object (h : MembersInOrder members) : (Json.object members).InOrder := by
  rw [InOrder, sorted, MembersInOrder.sortedMembers (by simpa using h), List.nil_append]

theorem sortedItems_eq_map (items : List Json) : sortedItems items = items.map sorted := by
  induction items with
  | nil => rfl
  | cons item rest ih => rw [sortedItems, ih, List.map_cons]

theorem sorted_list (write : α → Json) (items : List α) :
    (list write items).sorted = array (items.map fun item => (write item).sorted) := by
  rw [list, sorted, sortedItems_eq_map, List.map_map]
  rfl

theorem inOrder_array {items : List Json} (h : ∀ item ∈ items, item.InOrder) :
    (Json.array items).InOrder := by
  rw [InOrder, sorted, sortedItems_eq_map, List.map_congr_left h, List.map_id']

/-! ### Reading -/

namespace Decoder

/-- Whatever is read from an embedded text is in order. -/
def ReadsInOrder (embedded : String → Option Json) : Prop :=
  ∀ text value, embedded text = some value → value.InOrder

variable {embedded : String → Option Json} {depth : Nat} {source : Source}

theorem inOrder_of_valueItems (hvalue : ∀ source value, valueBy embedded depth source = some value →
    value.InOrder) {sources : List Source} {items : List Json}
    (h : valueItems embedded depth sources = some items) : ∀ item ∈ items, item.InOrder := by
  induction sources generalizing items with
  | nil =>
    cases h
    simp
  | cons source rest ih =>
    simp only [valueItems, Option.bind_eq_bind, Option.bind_eq_some_iff, Option.pure_def,
      Option.some.injEq] at h
    obtain ⟨first, hfirst, others, hothers, rfl⟩ := h
    intro item hitem
    rcases List.mem_cons.1 hitem with rfl | hitem
    · exact hvalue source item hfirst
    · exact ih hothers item hitem

theorem membersInOrder_of_valueMembers (hvalue : ∀ source value,
    valueBy embedded depth source = some value → value.InOrder)
    {fields : List (Option String × Source)} {done : List (String × Json)}
    (hdone : MembersInOrder done) (h : valueMembers embedded depth done fields = some members) :
    MembersInOrder members := by
  induction fields generalizing done with
  | nil =>
    cases h
    exact hdone
  | cons field rest ih =>
    obtain ⟨name, source⟩ := field
    simp only [valueMembers, Option.bind_eq_bind, Option.bind_eq_some_iff] at h
    obtain ⟨name, rfl, value, hsource, h⟩ := h
    exact ih (hdone.insertMember (hvalue source value hsource)) h

/-- The values that are read are in order, by induction on the depth that may still be opened. -/
theorem ReadsInOrder.valueBy (hembedded : ReadsInOrder embedded)
    (h : valueBy embedded depth source = some value) : value.InOrder := by
  induction depth using Nat.strongRecOn generalizing source value with
  | ind depth ih =>
    cases source with
    | null | bool =>
      simp only [Decoder.valueBy, Option.some.injEq] at h
      exact h ▸ rfl
    | number | string =>
      simp only [Decoder.valueBy, Option.map_eq_some_iff] at h
      obtain ⟨_, -, rfl⟩ := h
      rfl
    | array sources =>
      cases depth with
      | zero => simp [Decoder.valueBy] at h
      | succ depth =>
        simp only [Decoder.valueBy, Option.map_eq_some_iff] at h
        obtain ⟨items, hitems, rfl⟩ := h
        exact inOrder_array (inOrder_of_valueItems (fun _ _ => ih depth depth.lt_succ_self) hitems)
    | object fields =>
      cases depth with
      | zero => simp [Decoder.valueBy] at h
      | succ depth =>
        rw [Decoder.valueBy] at h
        split at h
        · obtain ⟨text, -, htext⟩ := Option.bind_eq_some_iff.1 h
          exact hembedded text value htext
        · obtain ⟨members, hmembers, rfl⟩ := Option.map_eq_some_iff.1 h
          exact (membersInOrder_of_valueMembers (fun _ _ => ih depth depth.lt_succ_self)
            membersInOrder_nil hmembers).object

/-- An embedded text is read in order, by induction on the texts that it may embed itself. -/
theorem readsInOrder_embeddedValue (levels : Nat) : ReadsInOrder (embeddedValue levels) := by
  induction levels with
  | zero =>
    intro text value h
    cases h
  | succ levels ih =>
    intro text value h
    obtain ⟨source, -, hsource⟩ := Option.bind_eq_some_iff.1 h
    exact ih.valueBy hsource

theorem readsInOrder_embedded : ReadsInOrder Decoder.embedded :=
  fun text => readsInOrder_embeddedValue (text.length + 1) text

theorem membersInOrder_of_object (h : object depth source = some members) :
    MembersInOrder members := by
  unfold object at h
  split at h
  · exact membersInOrder_of_valueMembers (fun _ _ => readsInOrder_embedded.valueBy)
      membersInOrder_nil h
  · cases h

end Decoder

end Jukebox.Json

import Timetable.Json.Interchange
import Timetable.Proofs.Json.Records

/-!
# The interchange format decodes back

The written form of a plan record (`PlanText`) lets the members of its objects come in any order,
lets members be left out that hold their default, lets further members stand among them, and lets
texts be escaped and blanks be set in any way. Decoding gives the record back
(`decode_of_planText`), for all ids of 64 bits and counters of 32 bits.

Each kind of record is a layout that describes it (`describes_section`, `describes_course`,
`describes_plan`), by the draft that holds a given set of its fields.
-/

namespace Timetable

/-! ## The range of the numbers -/

/-- An integer of 64 bits. -/
def IsId (n : Int) : Prop := minId ≤ n ∧ n ≤ maxId

instance (n : Int) : Decidable (IsId n) := inferInstanceAs (Decidable (_ ∧ _))

/-- An integer of 32 bits. -/
def IsCount (n : Int) : Prop := minCount ≤ n ∧ n ≤ maxCount

/-- The numbers of a section record are in the range that the interchange format has for them. -/
structure SectionRecord.InRange (r : SectionRecord) : Prop where
  id : IsId r.id
  courseId : IsId r.courseId
  capacity : ∀ n, r.capacity = some n → IsCount n
  selectedCount : ∀ n, r.selectedCount = some n → IsCount n
  enrolled : ∀ n, r.enrolled = some n → IsCount n

/-- So are those of a course record and of its sections. -/
structure CourseRecord.InRange (r : CourseRecord) : Prop where
  id : IsId r.id
  sections : ∀ s ∈ r.sections, s.InRange

/-- So are those of all records of a plan. -/
def PlanRecord.InRange (r : PlanRecord) : Prop := ∀ c ∈ r.courses, c.InRange

namespace Json

/-! ## The written form of records -/

/-- The declared members of a section record. -/
def sectionSlots (r : SectionRecord) : List Slot :=
  [⟨"id", False, IntegerText r.id⟩,
   ⟨"course_id", False, IntegerText r.courseId⟩,
   ⟨"section_code", False, StringText r.code⟩,
   ⟨"days", r.days = "", StringText r.days⟩,
   ⟨"times", r.times = "", StringText r.times⟩,
   ⟨"capacity", r.capacity = none, OptionText IntegerText r.capacity⟩,
   ⟨"selected_count", r.selectedCount = none, OptionText IntegerText r.selectedCount⟩,
   ⟨"enrollment_snapshot", r.enrolled = none, OptionText IntegerText r.enrolled⟩,
   ⟨"faculty", r.faculty = none, OptionText StringText r.faculty⟩,
   ⟨"room", r.room = none, OptionText StringText r.room⟩,
   ⟨"is_selected", r.selected = false, FlagText r.selected⟩]

/-- The declared members of a course record. -/
def courseSlots (r : CourseRecord) : List Slot :=
  [⟨"id", False, IntegerText r.id⟩,
   ⟨"code", False, StringText r.code⟩,
   ⟨"term", False, StringText r.term⟩,
   ⟨"title", r.title = none, OptionText StringText r.title⟩,
   ⟨"sections", r.sections = [], ListText (fun s => RecordText (sectionSlots s)) r.sections⟩]

/-- The declared members of a plan record. -/
def planSlots (r : PlanRecord) : List Slot :=
  [⟨"term", r.term = none, OptionText StringText r.term⟩,
   ⟨"courses", r.courses = [], ListText (fun c => RecordText (courseSlots c)) r.courses⟩]

/-- The text is a JSON text of the plan record. -/
def PlanText (r : PlanRecord) (body : String) : Prop :=
  Padded (RecordText (planSlots r)) body.toList []

/-! ## Drafts that hold some of the fields -/

/-- The value of a field in a draft that holds the fields with the names `seen`. -/
def held {α : Type} (seen : List String) (name : String) (x : α) : Option α :=
  if name ∈ seen then some x else none

theorem held_of_mem {α : Type} {seen : List String} {name : String} {x : α}
    (member : name ∈ seen) : held seen name x = some x := if_pos member

theorem getD_held {α : Type} {seen : List String} {name : String} {x other : α}
    (known : x = other ∨ name ∈ seen) : (held seen name x).getD other = x := by
  rcases known with rfl | member
  · unfold held
    split <;> rfl
  · rw [held_of_mem member, Option.getD_some]

theorem isSome_held {α : Type} {seen : List String} {name : String} {x : α} :
    (held seen name x).isSome = true ↔ name ∈ seen := by
  unfold held
  split
  case isTrue member => simp [member]
  case isFalse missing => simp [missing]

/-- The draft of a section record that holds the fields with the names `seen`. -/
def sectionDraft (r : SectionRecord) (seen : List String) : SectionDraft where
  id := held seen "id" r.id
  courseId := held seen "course_id" r.courseId
  code := held seen "section_code" r.code
  days := held seen "days" r.days
  times := held seen "times" r.times
  capacity := held seen "capacity" r.capacity
  selectedCount := held seen "selected_count" r.selectedCount
  enrolled := held seen "enrollment_snapshot" r.enrolled
  faculty := held seen "faculty" r.faculty
  room := held seen "room" r.room
  selected := held seen "is_selected" r.selected

/-- The draft of a course record that holds the fields with the names `seen`. -/
def courseDraft (r : CourseRecord) (seen : List String) : CourseDraft where
  id := held seen "id" r.id
  code := held seen "code" r.code
  term := held seen "term" r.term
  title := held seen "title" r.title
  sections := held seen "sections" r.sections

/-- The draft of a plan record that holds the fields with the names `seen`. -/
def planDraft (r : PlanRecord) (seen : List String) : PlanDraft where
  term := held seen "term" r.term
  courses := held seen "courses" r.courses

/-! ## Fields -/

section Fields

variable {σ α : Type} {draft : List String → σ} {name : String} {get : σ → Option α}
  {set : α → σ → σ} {read : Reader α} {W : Form} {x : α}

theorem fills_of {required : Bool} {optional : Prop} (requires : required = true → ¬optional)
    (reads : Reads read W x) (gets : ∀ seen, get (draft seen) = held seen name x)
    (sets : ∀ seen, set x (draft seen) = draft (name :: seen)) :
    Fills (.of name required get set read) ⟨name, optional, W⟩ draft where
  name := rfl
  required := requires
  filled seen := by
    simp only [Field.of, gets, isSome_held]
  reads := by
    refine ⟨set x, ⟨reads.length_le, fun path u s t space written ends => ?_⟩, sets⟩
    simp [Field.of, reads.read path space written ends, Except.map]

end Fields

theorem Reads.anId {n : Int} (id : IsId n) : Reads anId (IntegerText n) n := by
  apply Reads.integer id
  simp only [IsId, minId, maxId, lowestMagnitude, maxNatural] at *
  omega

theorem Reads.aCount {n : Int} (count : IsCount n) : Reads aCount (IntegerText n) n := by
  apply Reads.integer count
  simp only [IsCount, minCount, maxCount, lowestMagnitude, maxNatural] at *
  omega

theorem Reads.someCount {n? : Option Int} (count : ∀ n, n? = some n → IsCount n) :
    Reads (Json.nullable Json.aCount) (OptionText IntegerText n?) n? :=
  Reads.nullable (fun n given => .aCount (count n given)) opens_integerText

theorem Reads.someText (x? : Option String) :
    Reads (Json.nullable Json.text) (OptionText StringText x?) x? :=
  Reads.nullable (fun x _ => .text x) opens_stringText

/-! ## Records -/

theorem describes_section {r : SectionRecord} (inRange : r.InRange) :
    Describes sectionLayout (sectionSlots r) (sectionDraft r) r where
  fills := by
    refine .cons (fills_of ?_ (.anId inRange.id) ?_ ?_) <|
      .cons (fills_of ?_ (.anId inRange.courseId) ?_ ?_) <|
      .cons (fills_of ?_ (.text r.code) ?_ ?_) <|
      .cons (fills_of ?_ (.text r.days) ?_ ?_) <|
      .cons (fills_of ?_ (.text r.times) ?_ ?_) <|
      .cons (fills_of ?_ (.someCount inRange.capacity) ?_ ?_) <|
      .cons (fills_of ?_ (.someCount inRange.selectedCount) ?_ ?_) <|
      .cons (fills_of ?_ (.someCount inRange.enrolled) ?_ ?_) <|
      .cons (fills_of ?_ (.someText r.faculty) ?_ ?_) <|
      .cons (fills_of ?_ (.someText r.room) ?_ ?_) <|
      .cons (fills_of ?_ (.flag r.selected) ?_ ?_) .nil
    all_goals simp [sectionDraft, held]
  distinct := by simp [sectionSlots]
  blank := rfl
  finish seen all := by
    simp only [sectionSlots, List.forall_mem_cons, false_or] at all
    obtain ⟨id, courseId, code, days, times, capacity, selectedCount, enrolled, faculty, room,
      selected, -⟩ := all
    simp [sectionLayout, SectionDraft.finish, sectionDraft, held_of_mem id, held_of_mem courseId,
      held_of_mem code, getD_held days, getD_held times, getD_held capacity,
      getD_held selectedCount, getD_held enrolled, getD_held faculty, getD_held room,
      getD_held selected]

theorem describes_course {r : CourseRecord} (inRange : r.InRange) :
    Describes courseLayout (courseSlots r) (courseDraft r) r where
  fills := by
    have sections : Reads (list sectionLayout.read)
        (ListText (fun s => RecordText (sectionSlots s)) r.sections) r.sections :=
      Reads.list (fun s member => (describes_section (inRange.sections s member)).reads)
        (fun s => opens_recordText (sectionSlots s))
    refine .cons (fills_of ?_ (.anId inRange.id) ?_ ?_) <|
      .cons (fills_of ?_ (.text r.code) ?_ ?_) <|
      .cons (fills_of ?_ (.text r.term) ?_ ?_) <|
      .cons (fills_of ?_ (.someText r.title) ?_ ?_) <|
      .cons (fills_of ?_ sections ?_ ?_) .nil
    all_goals simp [courseDraft, held]
  distinct := by simp [courseSlots]
  blank := rfl
  finish seen all := by
    simp only [courseSlots, List.forall_mem_cons, false_or] at all
    obtain ⟨id, code, term, title, sections, -⟩ := all
    simp [courseLayout, CourseDraft.finish, courseDraft, held_of_mem id, held_of_mem code,
      held_of_mem term, getD_held title, getD_held sections]

theorem describes_plan {r : PlanRecord} (inRange : r.InRange) :
    Describes planLayout (planSlots r) (planDraft r) r where
  fills := by
    have courses : Reads (list courseLayout.read)
        (ListText (fun c => RecordText (courseSlots c)) r.courses) r.courses :=
      Reads.list (fun c member => (describes_course (inRange c member)).reads)
        (fun c => opens_recordText (courseSlots c))
    refine .cons (fills_of ?_ (.someText r.term) ?_ ?_) <|
      .cons (fills_of ?_ courses ?_ ?_) .nil
    all_goals simp [planDraft, held]
  distinct := by simp [planSlots]
  blank := rfl
  finish seen all := by
    simp only [planSlots, List.forall_mem_cons] at all
    obtain ⟨term, courses, -⟩ := all
    simp [planLayout, planDraft, getD_held term, getD_held courses]

/-! ## Plans -/

theorem exists_read_of_planText {r : PlanRecord} {body : String} (inRange : r.InRange)
    (written : PlanText r body) : ∃ rest, planLayout.read [] body.toList = .ok (r, rest) := by
  obtain ⟨s, t, before, record, behind⟩ := written
  have ends : Ends t := ends_of_blanks behind (.inl rfl)
  exact ⟨t, (describes_plan inRange).reads.read [] before record ends⟩

/-- No text is a text of two records. -/
theorem PlanText.unique {r r' : PlanRecord} {body : String} (inRange : r.InRange)
    (inRange' : r'.InRange) (written : PlanText r body) (written' : PlanText r' body) : r = r' := by
  obtain ⟨rest, read⟩ := exists_read_of_planText inRange written
  obtain ⟨rest', read'⟩ := exists_read_of_planText inRange' written'
  rw [read] at read'
  exact congrArg Prod.fst (Except.ok.inj read')

/-- Every JSON text of a plan record decodes to that record: its members in any order, those that
hold their default there or not, any further members among them, texts escaped in any way, and any
blanks between the tokens. -/
theorem decode_of_planText {r : PlanRecord} {body : String} (inRange : r.InRange)
    (written : PlanText r body) : decode planLayout.read body = .ok r := by
  obtain ⟨rest, read⟩ := exists_read_of_planText inRange written
  rw [decode, read]

/-! ### A text with its members in another order -/

/-- A course of which everything that may be left out holds its default. -/
def reorderedCourse : CourseRecord := { id := -7, code := "\"😀", term := "T" }

/-- The members are in another order, one among them is not declared, and a name and a text have
escapes in them. -/
def reorderedCourseText : String :=
  "\x7b\"term\":\"T\",\"note\":[true],\"c\\u006fde\":\"\\\"\\uD83D\\ude00\",\"id\":-7\x7d"

/-- The text of a plan with that course and without a term. -/
def reorderedText : String := "\x7b\"courses\": [" ++ reorderedCourseText ++ "]\x7d"

/-- Characters that may stand for themselves are written as they are. -/
theorem chars_of_plain {content : List Char} (plain : ∀ c ∈ content, Plain c) (t : List Char) :
    Chars content (content ++ '"' :: t) t := by
  induction content with
  | nil => exact .close t
  | cons c content ih =>
    exact .plain (plain c List.mem_cons_self)
      (ih fun d member => plain d (List.mem_cons_of_mem c member))

theorem member_of {V : String → Form} {name : String} {s a b t : List Char}
    (chars : Chars name.toList s (':' :: a)) (space : Blanks a b) (value : V name b t) :
    Member V name ('"' :: s) t :=
  .named (.none _) (.quoted chars) (.none _) ⟨b, t, space, value, .none t⟩

theorem recordText_reorderedCourse (t : List Char) :
    RecordText (courseSlots reorderedCourse) (reorderedCourseText.toList ++ t) t := by
  simp only [reorderedCourseText, String.reduceToList, List.cons_append, List.nil_append]
  refine @RecordText.members _ ["term", "note", "code", "id"] _ _ (.parts ?_) (by decide)
    (by simp [courseSlots, reorderedCourse])
  apply Series.next
  · apply member_of (chars_of_plain (by simp [Plain]) _) (.none _)
    apply MemberValue.declared (List.mem_cons_of_mem _ (List.mem_cons_of_mem _ List.mem_cons_self))
    · rfl
    · show StringText "T" _ _
      exact .quoted (chars_of_plain (by simp [Plain]) _)
  apply Series.next
  · apply member_of (chars_of_plain (by simp [Plain]) _) (.none _)
    refine .further (by decide) (@Derives.nest .list _ _ ?_)
    exact @Derives.last .list _ _ _ _ _ (.none _) (.element _) (.truth _) (.none _)
  apply Series.next
  · apply member_of
    · show Chars ['c', 'o', 'd', 'e'] _ _
      apply Chars.plain (by decide)
      refine .numbered (by decide) (.digits _ ?_ ?_ ?_ ?_) (chars_of_plain (by simp [Plain]) _)
      all_goals exact ⟨by decide, by decide⟩
    · exact .none _
    · apply MemberValue.declared (List.mem_cons_of_mem _ List.mem_cons_self) rfl
      apply StringText.quoted
      show Chars ['"', '😀'] _ _
      refine .short (by decide) (.paired (by decide) (.digits _ ?_ ?_ ?_ ?_)
        (.digits _ ?_ ?_ ?_ ?_) (.close _))
      all_goals exact ⟨by decide, by decide⟩
  apply Series.last
  apply member_of (chars_of_plain (by simp [Plain]) _) (.none _)
  exact .declared List.mem_cons_self rfl rfl

theorem planText_reordered : PlanText { courses := [reorderedCourse] } reorderedText := by
  have plan : ∀ t, RecordText (planSlots { courses := [reorderedCourse] })
      ("\x7b\"courses\": [".toList ++ (reorderedCourseText.toList ++ (']' :: '\x7d' :: t))) t := by
    intro t
    refine @RecordText.members _ ["courses"] _ _ (.parts (.last ?_)) (by simp [planSlots])
      (by simp [planSlots])
    apply member_of (chars_of_plain (by simp [Plain]) _) (.cons (by decide) (.none _))
    apply MemberValue.declared (List.mem_cons_of_mem _ List.mem_cons_self) rfl
    exact .parts (.last ⟨_, _, .none _, recordText_reorderedCourse _, .none _⟩)
  refine ⟨_, [], .none _, ?_, .none _⟩
  simpa [reorderedText] using plan []

theorem decode_of_planText_reordered :
    PlanRecord.InRange { courses := [reorderedCourse] } ∧
      PlanText { courses := [reorderedCourse] } reorderedText ∧
        decode planLayout.read reorderedText = .ok { courses := [reorderedCourse] } := by
  have inRange : PlanRecord.InRange { courses := [reorderedCourse] } := by
    intro c member
    rw [List.mem_singleton.1 member]
    exact ⟨by decide, fun s member => by cases member⟩
  exact ⟨inRange, planText_reordered, decode_of_planText inRange planText_reordered⟩

end Json

end Timetable

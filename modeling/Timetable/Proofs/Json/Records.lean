import Mathlib.Data.List.Forall2
import Timetable.Proofs.Json.Skipping

/-!
# Reading lists and records

What a reader owes to a written form is `Reads`: it takes every text of the form, behind any blanks,
to the same value. Readers of whole values keep this as they are put together: `Reads.nullable`,
`Reads.list`, and `Describes.reads` for records. A layout describes a record when each of its fields
fills the slot of the same name; then the members may come in any order, declared ones may be left
out if they are optional, and any others are skipped.
-/

namespace Timetable.Json

/-- `read` reads every text of the form `W` as `x`. -/
structure Reads {α : Type} (read : Reader α) (W : Form) (x : α) : Prop where
  length_le : ∀ {s t : List Char}, W s t → t.length ≤ s.length
  read : ∀ (path : Path) {u s t : List Char}, Blanks u s → W s t → Ends t → read path u = .ok (x, t)

/-- The texts of the form can be told from blanks, from `null` and from the end of a list. -/
def Opens (W : Form) : Prop :=
  ∀ {s t : List Char}, W s t → ∃ c rest, s = c :: rest ∧ isSpace c = false ∧ c ≠ 'n' ∧ c ≠ ']'

/-! ## Scalars -/

theorem opens_stringText (x : String) : Opens (StringText x) := by
  intro s t written
  cases written with
  | @quoted s _ _ => exact ⟨'"', s, rfl, by decide⟩

theorem StringText.length_lt {x : String} {s t : List Char} (written : StringText x s t) :
    t.length < s.length := by
  cases written with
  | quoted chars => exact Nat.lt_succ_of_lt chars.anyChars.length_lt

theorem Reads.text (x : String) : Reads text (StringText x) x where
  length_le written := Nat.le_of_lt written.length_lt
  read path u s t space written _ := by
    cases written with
    | quoted chars =>
      have skipped := skipSpace_of_blanks space (by decide)
      simp [Json.text, skipped, readText, readChars_of_chars chars]

theorem Reads.flag (x : Bool) : Reads flag (FlagText x) x where
  length_le written := by
    rw [FlagText] at written
    simp [written]
  read path u s t space written _ := flag_of_flagText space written

theorem opens_integerText (n : Int) : Opens (IntegerText n) := by
  intro s t written
  rcases exists_of_integerText written with ⟨m, -, rfl⟩ | ⟨m, -, -, rfl⟩
  · obtain ⟨d, ds, digits, digit⟩ := exists_digit_of_toDigits m
    refine ⟨d, ds ++ t, by rw [digits, List.cons_append], isSpace_of_isDigit digit, ?_, ?_⟩
    · exact ne_of_isDigit digit (by decide)
    · exact ne_of_isDigit digit (by decide)
  · exact ⟨'-', _, rfl, by decide⟩

theorem Reads.integer {low high n : Int} {wanted : String} (inside : low ≤ n ∧ n ≤ high)
    (wide : -(lowestMagnitude : Int) ≤ n ∧ n ≤ maxNatural) :
    Reads (integer low high wanted) (IntegerText n) n where
  length_le written := by
    rw [IntegerText] at written
    simp [written]
  read _ _ _ _ space written ends := integer_of_decimal inside wide space written ends

/-- What may be null is read, when what stands there otherwise does not look like `null`. -/
theorem Reads.nullable {α : Type} {read : Reader α} {W : α → Form} {x : Option α}
    (reads : ∀ y, x = some y → Reads read (W y) y) (opens : ∀ y, Opens (W y)) :
    Reads (nullable read) (OptionText W x) x := by
  cases x with
  | none =>
    refine ⟨fun written => ?_, fun path u s t space written _ => ?_⟩
    · rw [written, List.length_append]
      exact Nat.le_add_left _ _
    · subst written
      have skipped : skipSpace u = 'n' :: ("ull".toList ++ t) :=
        skipSpace_of_blanks space (by decide)
      simp only [Json.nullable, skipped, readWord_append, Except.map]
  | some y =>
    have reads := reads y rfl
    refine ⟨reads.length_le, fun path u s t space written ends => ?_⟩
    obtain ⟨c, rest, rfl, fresh, noNull, -⟩ := opens y written
    have value := reads.read path (.none _) written ends
    simp [Json.nullable, skipSpace_of_blanks space fresh, noNull, value, Except.map]

/-! ## Lists -/

/-- Where the next part of a series is looked for: at the start of the series, or in front of a
comma. -/
inductive Arrives : Bool → List Char → List Char → Prop where
  | first (s : List Char) : Arrives true s s
  | behind {u s : List Char} : Blanks u (',' :: s) → Arrives false u s

theorem nextElement_of_arrives {path : Path} {first : Bool} {u s rest : List Char} {c : Char}
    (arrives : Arrives first u s) (space : Blanks s (c :: rest)) (fresh : isSpace c = false)
    (more : c ≠ ']') : nextElement path first u = .ok (some (c :: rest)) := by
  have skipped := skipSpace_of_blanks space fresh
  cases arrives with
  | first => simp [nextElement, skipped, more]
  | behind comma =>
    have separated := skipSpace_of_blanks comma (by decide)
    simp [nextElement, separated, skipped, more]

theorem nextElement_close {path : Path} {first : Bool} {u t : List Char}
    (space : Blanks u (']' :: t)) : nextElement path first u = .ok none := by
  have skipped := skipSpace_of_blanks space (by decide)
  simp [nextElement, skipped]

/-- Every part of a series is followed by a comma or a bracket of its own. -/
theorem Series.length_le {α : Type} {closing : Char} {W : α → Form} {xs : List α}
    {s t : List Char} (series : Series closing W xs s t)
    (parts : ∀ x ∈ xs, ∀ {s t : List Char}, W x s t → t.length ≤ s.length) :
    xs.length + t.length ≤ s.length := by
  induction series with
  | last part =>
    have shorter := parts _ List.mem_cons_self part
    simp only [List.length_cons, List.length_nil] at *
    omega
  | next part _ ih =>
    have shorter := parts _ List.mem_cons_self part
    have others := ih fun x member => parts x (List.mem_cons_of_mem _ member)
    simp only [List.length_cons] at *
    omega

theorem Enclosed.length_le {α : Type} {opening closing : Char} {W : α → Form} {xs : List α}
    {s t : List Char} (enclosed : Enclosed opening closing W xs s t)
    (parts : ∀ x ∈ xs, ∀ {s t : List Char}, W x s t → t.length ≤ s.length) :
    t.length ≤ s.length := by
  cases enclosed with
  | empty space =>
    have shorter := space.length_le
    simp only [List.length_cons] at *
    omega
  | parts series =>
    have shorter := series.length_le parts
    rw [List.length_cons]
    omega

theorem Padded.length_le {W : Form} (part : ∀ {s t : List Char}, W s t → t.length ≤ s.length)
    {s t : List Char} (padded : Padded W s t) : t.length ≤ s.length := by
  obtain ⟨a, b, before, written, behind⟩ := padded
  exact Nat.le_trans behind.length_le (Nat.le_trans (part written) before.length_le)

section Lists

variable {α : Type} {read : Reader α} {W : α → Form}

/-- A round for an element: it is read, and reading goes on behind it. -/
theorem exists_of_element (path : Path) {x : α} {position : Nat} {u s t : List Char}
    (arrives : Arrives (position = 0) u s) (part : Padded (W x) s t) (reads : Reads read (W x) x)
    (opens : Opens (W x)) (ends : ∀ b, Blanks b t → Ends b) :
    ∃ b, Blanks b t ∧ ∀ fuel, readElements read path (fuel + 1) position u =
      (readElements read path fuel (position + 1) b).map fun (xs, rest) => (x :: xs, rest) := by
  obtain ⟨a, b, space, written, behind⟩ := part
  obtain ⟨c, rest, rfl, fresh, -, more⟩ := opens written
  have value := reads.read (path ++ [.index position]) (.none _) written (ends b behind)
  refine ⟨b, behind, fun fuel => ?_⟩
  simp only [readElements, nextElement_of_arrives arrives space fresh more, value]

/-- The elements are read one by one, up to blanks and the closing bracket. -/
theorem readElements_of_series (path : Path) {xs : List α} {s t : List Char}
    (series : Series ']' (fun x => Padded (W x)) xs s t)
    (reads : ∀ x ∈ xs, Reads read (W x) x) (opens : ∀ x, Opens (W x)) {fuel position : Nat}
    {u : List Char} (enough : xs.length < fuel) (arrives : Arrives (position = 0) u s) :
    ∃ b, readElements read path fuel position u = .ok (xs, b) ∧ Blanks b (']' :: t) := by
  induction series generalizing fuel position u with
  | @last x s t part =>
    obtain ⟨b, close, round⟩ := exists_of_element path arrives part (reads x List.mem_cons_self)
      (opens x) fun b space => @ends_of_close .list b t space
    obtain ⟨fuel, rfl⟩ : ∃ n, fuel = n + 2 := ⟨fuel - 2, by simp at enough; omega⟩
    refine ⟨b, ?_, close⟩
    rw [round, readElements, nextElement_close close]
    rfl
  | @next x y rest s e t part _ ih =>
    obtain ⟨b, comma, round⟩ := exists_of_element path arrives part (reads x List.mem_cons_self)
      (opens x) fun b space => ends_of_comma space
    obtain ⟨fuel, rfl⟩ : ∃ n, fuel = n + 1 := ⟨fuel - 1, by omega⟩
    have arrives' : Arrives (position + 1 = 0) b e := by simpa using Arrives.behind comma
    obtain ⟨f, others, close⟩ := ih (fun z member => reads z (List.mem_cons_of_mem _ member))
      (Nat.lt_of_succ_lt_succ enough) arrives'
    refine ⟨f, ?_, close⟩
    rw [round, others]
    rfl

theorem closeList_of_blanks {path : Path} {b t : List Char} (space : Blanks b (']' :: t)) :
    closeList path b = .ok t := by
  have skipped := skipSpace_of_blanks space (by decide)
  simp [closeList, skipped]

/-- A list is read when each of its elements is. -/
theorem Reads.list {xs : List α} (reads : ∀ x ∈ xs, Reads read (W x) x)
    (opens : ∀ x, Opens (W x)) : Reads (list read) (ListText W xs) xs where
  length_le written := Enclosed.length_le written fun x member _ _ padded =>
    padded.length_le (reads x member).length_le
  read path u s t space written _ := by
    cases written with
    | @empty s _ blank =>
      have skipped := skipSpace_of_blanks space (by decide)
      simp [Json.list, skipped, readElements, nextElement_close blank, closeList_of_blanks blank,
        Except.map]
    | @parts x rest s _ series =>
      have skipped := skipSpace_of_blanks space (by decide)
      have shorter := series.length_le fun x member _ _ padded =>
        padded.length_le (reads x member).length_le
      have enough : (x :: rest).length < s.length + 1 := by omega
      have arrives : Arrives ((0 : Nat) = 0) s s := .first s
      obtain ⟨b, elements, close⟩ :=
        readElements_of_series path series reads opens enough arrives
      simp [Json.list, skipped, elements, closeList_of_blanks close, Except.map]

end Lists

/-! ## Records -/

/-- A field fills a slot: it goes by its name, is optional when the field is not required, and reads
its value into the draft. `draft seen` is the draft that holds the fields with the names `seen`. -/
structure Fills {σ : Type} (f : Field σ) (slot : Slot) (draft : List String → σ) : Prop where
  name : f.name = slot.name
  required : f.required = true → ¬slot.optional
  filled : ∀ seen, f.filled (draft seen) = true ↔ slot.name ∈ seen
  reads : ∃ put, Reads f.read slot.form put ∧ ∀ seen, put (draft seen) = draft (slot.name :: seen)

/-- A layout describes a record: its fields fill the declared slots, and a draft that holds all that
may not be left out makes the record. -/
structure Describes {σ α : Type} (l : Layout σ α) (slots : List Slot) (draft : List String → σ)
    (x : α) : Prop where
  fills : List.Forall₂ (fun f slot => Fills f slot draft) l.fields slots
  distinct : (slots.map (·.name)).Nodup
  blank : draft [] = l.blank
  finish : ∀ seen, (∀ slot ∈ slots, slot.optional ∨ slot.name ∈ seen) →
    l.finish (draft seen) = some x

section Layouts

variable {σ α : Type} {l : Layout σ α} {slots : List Slot} {draft : List String → σ} {x : α}

theorem find?_of_fills {fields : List (Field σ)}
    (fills : List.Forall₂ (fun f slot => Fills f slot draft) fields slots)
    (distinct : (slots.map (·.name)).Nodup) {slot : Slot} (member : slot ∈ slots) :
    ∃ f, fields.find? (·.name = slot.name) = some f ∧ Fills f slot draft := by
  induction fills with
  | nil => cases member
  | @cons f first fields slots fill _ ih =>
    rw [List.map_cons, List.nodup_cons] at distinct
    rcases List.mem_cons.1 member with rfl | member
    · exact ⟨f, by simp [fill.name], fill⟩
    · have other : f.name ≠ slot.name := by
        rw [fill.name]
        exact fun same => distinct.1 (same ▸ List.mem_map_of_mem member)
      obtain ⟨g, found, fill⟩ := ih distinct.2 member
      exact ⟨g, by simp [other, found], fill⟩

theorem find?_eq_none_of_fills {fields : List (Field σ)}
    (fills : List.Forall₂ (fun f slot => Fills f slot draft) fields slots) {name : String}
    (undeclared : ∀ slot ∈ slots, slot.name ≠ name) : fields.find? (·.name = name) = none := by
  induction fills with
  | nil => rfl
  | cons fill _ ih =>
    have other := undeclared _ List.mem_cons_self
    rw [← fill.name] at other
    simp [other, ih fun slot member => undeclared slot (List.mem_cons_of_mem _ member)]

theorem exists_of_mem_fields {fields : List (Field σ)}
    (fills : List.Forall₂ (fun f slot => Fills f slot draft) fields slots) {f : Field σ}
    (member : f ∈ fields) : ∃ slot ∈ slots, Fills f slot draft := by
  induction fills with
  | nil => cases member
  | cons fill _ ih =>
    rcases List.mem_cons.1 member with rfl | member
    · exact ⟨_, List.mem_cons_self, fill⟩
    · obtain ⟨slot, among, fill⟩ := ih member
      exact ⟨slot, List.mem_cons_of_mem _ among, fill⟩

theorem nextName_of_arrives (path : Path) {first : Bool} {u s rest : List Char}
    (arrives : Arrives first u s) (space : Blanks s ('"' :: rest)) :
    Layout.nextName path first u = .ok (some rest) := by
  have skipped := skipSpace_of_blanks space (by decide)
  cases arrives with
  | first => simp [Layout.nextName, skipped]
  | behind comma =>
    have separated := skipSpace_of_blanks comma (by decide)
    simp [Layout.nextName, separated, skipped]

theorem nextName_close {path : Path} {first : Bool} {u t : List Char}
    (space : Blanks u ('\x7d' :: t)) : Layout.nextName path first u = .ok none := by
  have skipped := skipSpace_of_blanks space (by decide)
  simp [Layout.nextName, skipped]

/-- The value of a member goes into the draft when it is declared, and nowhere otherwise. -/
theorem readMember_of_value (describes : Describes l slots draft x) (path : Path) {name : String}
    {seen : List String} {b c d t : List Char} (colon : Blanks b (':' :: c)) (space : Blanks c d)
    (value : MemberValue slots name d t) (ends : Ends t)
    (fresh : ∀ slot ∈ slots, slot.name = name → name ∉ seen) :
    ∃ seen', l.readMember path name (draft seen) b = .ok (draft seen', t) ∧
      ∀ slot ∈ slots, slot.name ∈ seen' ↔ slot.name = name ∨ slot.name ∈ seen := by
  have found : Layout.readColon path b = .ok c := by
    simp [Layout.readColon, skipSpace_of_blanks colon (by decide)]
  cases value with
  | @declared slot _ _ member same written =>
    subst same
    obtain ⟨f, find, fill⟩ := find?_of_fills describes.fills describes.distinct member
    obtain ⟨put, reads, puts⟩ := fill.reads
    have unfilled : f.filled (draft seen) = false := by
      rw [Bool.eq_false_iff, ne_eq, fill.filled]
      exact fresh slot member rfl
    have read := reads.read (path ++ [.key slot.name]) space written ends
    refine ⟨slot.name :: seen, ?_, fun _ _ => List.mem_cons⟩
    simp [Layout.readMember, find, unfilled, found, read, puts, Except.map]
  | further undeclared written =>
    have skipped := skipValue_of_derives (path ++ [.key name]) space written ends
    refine ⟨seen, ?_, fun slot member => by simp [undeclared slot member]⟩
    simp [Layout.readMember, find?_eq_none_of_fills describes.fills undeclared, found, skipped,
      Except.map]

/-- A round for a member: its name is read, then its value. -/
theorem exists_of_member (describes : Describes l slots draft x) (path : Path) {name : String}
    {first : Bool} {seen : List String} {u s t : List Char} (arrives : Arrives first u s)
    (member : Member (MemberValue slots) name s t) (ends : ∀ b, Blanks b t → Ends b)
    (fresh : ∀ slot ∈ slots, slot.name = name → name ∉ seen) :
    ∃ seen' b, Blanks b t ∧
      (∀ slot ∈ slots, slot.name ∈ seen' ↔ slot.name = name ∨ slot.name ∈ seen) ∧
      ∀ fuel, l.readMembers path (fuel + 1) first (draft seen) u =
        l.readMembers path fuel false (draft seen') b := by
  cases member with
  | named space quoted colon padded =>
    obtain ⟨d, b, before, value, behind⟩ := padded
    cases quoted with
    | quoted chars =>
      have started := nextName_of_arrives (path ++ [.unknown]) arrives space
      obtain ⟨seen', read, seen_iff⟩ :=
        readMember_of_value describes path colon before value (ends b behind) fresh
      refine ⟨seen', b, behind, seen_iff, fun fuel => ?_⟩
      simp [Layout.readMembers, started, readText, readChars_of_chars chars, read]

/-- The members are read one by one, up to blanks and the closing brace. The draft then holds every
declared member that was there, and the ones that it held before. -/
theorem readMembers_of_series (describes : Describes l slots draft x) (path : Path)
    {names : List String} {s t : List Char}
    (series : Series '\x7d' (Member (MemberValue slots)) names s t) {fuel : Nat} {first : Bool}
    {seen : List String} {u : List Char} (enough : names.length < fuel)
    (arrives : Arrives first u s) (once : ∀ slot ∈ slots, names.count slot.name ≤ 1)
    (fresh : ∀ slot ∈ slots, slot.name ∈ seen → slot.name ∉ names) :
    ∃ seen' b, l.readMembers path fuel first (draft seen) u = .ok (draft seen', b) ∧
      Blanks b ('\x7d' :: t) ∧
      ∀ slot ∈ slots, slot.name ∈ names ∨ slot.name ∈ seen → slot.name ∈ seen' := by
  induction series generalizing fuel first seen u with
  | @last name s t member =>
    obtain ⟨fuel, rfl⟩ : ∃ n, fuel = n + 2 := ⟨fuel - 2, by simp at enough; omega⟩
    obtain ⟨seen', b, close, seen_iff, round⟩ := exists_of_member describes path arrives member
      (fun b space => @ends_of_close .object b t space)
      (fun slot among same held => fresh slot among (same ▸ held) (same ▸ List.mem_cons_self))
    refine ⟨seen', b, ?_, close, fun slot among held => ?_⟩
    · rw [round]
      simp [Layout.readMembers, nextName_close close]
    · rw [seen_iff slot among]
      simpa using held
  | @next name another rest s a t member _ ih =>
    obtain ⟨fuel, rfl⟩ : ∃ n, fuel = n + 1 := ⟨fuel - 1, by omega⟩
    obtain ⟨seen', b, comma, seen_iff, round⟩ := exists_of_member describes path arrives member
      (fun b space => ends_of_comma space)
      (fun slot among same held => fresh slot among (same ▸ held) (same ▸ List.mem_cons_self))
    have onceRest : ∀ slot ∈ slots, (another :: rest).count slot.name ≤ 1 := by
      intro slot among
      exact Nat.le_trans (List.count_le_count_cons) (once slot among)
    have freshRest : ∀ slot ∈ slots, slot.name ∈ seen' → slot.name ∉ another :: rest := by
      intro slot among held later
      rcases (seen_iff slot among).1 held with same | held
      · -- A declared name that has just come would come twice.
        have count := once slot among
        have again := List.count_pos_iff.2 later
        rw [← same, List.count_cons_self] at count
        omega
      · exact fresh slot among held (List.mem_cons_of_mem _ later)
    obtain ⟨all, e, read, close, held_of⟩ := ih (Nat.lt_of_succ_lt_succ enough)
      (.behind comma) onceRest freshRest
    refine ⟨all, e, by rw [round, read], close, fun slot among held => ?_⟩
    apply held_of slot among
    rw [seen_iff slot among]
    rw [List.mem_cons] at held
    tauto

/-- A draft that holds all that may not be left out is closed. -/
theorem close_of_held (describes : Describes l slots draft x) {path : Path} {seen : List String}
    {t : List Char} (held : ∀ slot ∈ slots, slot.optional ∨ slot.name ∈ seen) :
    l.close path (draft seen) t = .ok (x, t) := by
  have complete : l.fields.find? (fun f => f.required && !f.filled (draft seen)) = none := by
    rw [List.find?_eq_none]
    intro f member missing
    obtain ⟨slot, among, fill⟩ := exists_of_mem_fields describes.fills member
    rw [Bool.and_eq_true, Bool.not_eq_true'] at missing
    rcases held slot among with optional | there
    · exact fill.required missing.1 optional
    · rw [(fill.filled seen).2 there] at missing
      cases missing.2
  simp [Layout.close, complete, describes.finish seen held]

theorem opens_recordText (slots : List Slot) : Opens (RecordText slots) := by
  intro s t written
  cases written with
  | members object _ _ =>
    cases object with
    | empty _ => exact ⟨'\x7b', _, rfl, by decide⟩
    | parts _ => exact ⟨'\x7b', _, rfl, by decide⟩

theorem MemberValue.length_le (describes : Describes l slots draft x) {name : String}
    {s t : List Char} (value : MemberValue slots name s t) : t.length ≤ s.length := by
  cases value with
  | declared among _ written =>
    obtain ⟨f, -, fill⟩ := find?_of_fills describes.fills describes.distinct among
    obtain ⟨put, reads, -⟩ := fill.reads
    exact reads.length_le written
  | further _ written => exact written.length_le

theorem Member.length_le (describes : Describes l slots draft x) {name : String}
    {s t : List Char} (member : Member (MemberValue slots) name s t) : t.length ≤ s.length := by
  cases member with
  | named space quoted colon padded =>
    have before := space.length_le
    have name := quoted.length_lt
    have behind := colon.length_le
    have value := padded.length_le (MemberValue.length_le describes)
    simp only [List.length_cons] at *
    omega

/-- A record is read from an object with its members. -/
theorem Describes.reads (describes : Describes l slots draft x) :
    Reads l.read (RecordText slots) x where
  length_le written := by
    cases written with
    | members object _ _ =>
      exact Enclosed.length_le object fun _ _ _ _ member => member.length_le describes
  read path u s t space written _ := by
    cases written with
    | @members names _ _ object once held =>
      cases object with
      | @empty s _ blank =>
        have skipped := skipSpace_of_blanks space (by decide)
        have close := skipSpace_of_blanks blank (by decide)
        have held' : ∀ slot ∈ slots, slot.optional ∨ slot.name ∈ ([] : List String) := held
        simp [Layout.read, skipped, Layout.readMembers, nextName_close blank, ← describes.blank,
          close, close_of_held describes held']
      | @parts name rest s _ series =>
        have skipped := skipSpace_of_blanks space (by decide)
        have shorter := series.length_le fun _ _ _ _ member => member.length_le describes
        have enough : (name :: rest).length < s.length + 1 := by omega
        obtain ⟨seen, b, read, closing, seen_of⟩ := readMembers_of_series describes path series
          enough (.first s) once fun _ _ none => absurd none List.not_mem_nil
        have close := skipSpace_of_blanks closing (by decide)
        have all : ∀ slot ∈ slots, slot.optional ∨ slot.name ∈ seen := fun slot among =>
          (held slot among).imp id fun there => seen_of slot among (.inl there)
        rw [describes.blank] at read
        simp [Layout.read, skipped, read, close, close_of_held describes all]

end Layouts

end Timetable.Json

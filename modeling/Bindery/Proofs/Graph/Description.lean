import Bindery.Proofs.Graph.Lookup
import Bindery.Proofs.Json.Skip
import Bindery.Proofs.Text.Utf8

/-!
# The description of a package

Of the members of a description two are read and the others are passed over. On a text that the
strict reader takes, too, this gives what is found among the members of the object: each of the two
is missing, or stands there once and is a text or null. Otherwise nothing is read at all.

* `Lookup.FieldIs` : what one field is read as.
* `Lookup.fieldValue?_eq_some_iff`, `Lookup.fields?_eq_some_iff` : one member, and all of them.
* `Lookup.mainField?_eq_some_iff` : the main file that a description names.
-/

namespace Bindery.Lookup

open Json

variable {fuel depth : Nat} {cs r : List Char} {q : Marked} {v : Json} {key k : String}
  {members done more : List (String × Json)} {field other : Option (Option String)}
  {fields seen : Fields}

/-! ## One field -/

/-- A text or null. -/
def textOrNull? : Json → Option (Option String)
  | .null => some none
  | .str s => some (some s)
  | _ => none

/-- A field as it is read among members: it may be missing, and stands there at most once, as a text
or null. -/
inductive FieldIs (members : List (String × Json)) (key : String) : Option (Option String) → Prop
  | missing (h : members.filter (·.1 == key) = []) : FieldIs members key none
  | given {v : Json} {t : Option String} (h : members.filter (·.1 == key) = [(key, v)])
    (hread : textOrNull? v = some t) : FieldIs members key (some t)

theorem FieldIs.unique (h : FieldIs members key field) (h' : FieldIs members key other) :
    field = other := by
  cases h <;> cases h' <;> simp_all

theorem lookup_eq_head?_filter (members : List (String × Json)) (key : String) :
    members.lookup key = (members.filter (·.1 == key)).head?.map (·.2) := by
  induction members with
  | nil => rfl
  | cons m r ih =>
    obtain ⟨k, v⟩ := m
    by_cases hk : k = key
    · simp [hk]
    · have hkey : (key == k) = false := by simpa using Ne.symm hk
      rw [List.lookup_cons, hkey, List.filter_cons_of_neg (by simpa using hk)]
      exact ih

/-- A field is read as the member that is found under its name. -/
theorem FieldIs.eq_lookup (h : FieldIs members key field) :
    field = (members.lookup key).bind textOrNull? := by
  rw [lookup_eq_head?_filter]
  cases h with
  | missing h => simp [h]
  | given h hread => simp [h, hread]

/-- A field that is read in the end is read halfway. -/
theorem FieldIs.of_append (h : FieldIs (members ++ more) key field) :
    ∃ halfway, FieldIs members key halfway := by
  have hprefix : members.filter (·.1 == key) <+: (members ++ more).filter (·.1 == key) :=
    (List.prefix_append members more).filter _
  cases h with
  | missing h =>
    rw [h] at hprefix
    exact ⟨none, .missing (List.prefix_nil.1 hprefix)⟩
  | given h hread =>
    rw [h] at hprefix
    obtain hnil | ⟨t, ht, hnil⟩ := List.prefix_cons_iff.1 hprefix
    · exact ⟨none, .missing hnil⟩
    · exact ⟨_, .given (by rw [ht, List.prefix_nil.1 hnil]) hread⟩

theorem fieldIs_congr (h : members.filter (·.1 == key) = done.filter (·.1 == key)) :
    FieldIs members key field ↔ FieldIs done key field := by
  constructor
  · intro hfield
    cases hfield with
    | missing hmissing => exact .missing (h ▸ hmissing)
    | given hgiven hread => exact .given (h ▸ hgiven) hread
  · intro hfield
    cases hfield with
    | missing hmissing => exact .missing (h.trans hmissing)
    | given hgiven hread => exact .given (h.trans hgiven) hread

theorem fieldIs_append_other (h : k ≠ key) :
    FieldIs (done ++ [(k, v)]) key field ↔ FieldIs done key field :=
  fieldIs_congr (by simp [h])

/-- The first member of a name is the field. -/
theorem fieldIs_append_self (h : done.filter (·.1 == key) = []) :
    FieldIs (done ++ [(key, v)]) key field ↔ (textOrNull? v).map some = some field := by
  have hfilter : (done ++ [(key, v)]).filter (·.1 == key) = [(key, v)] := by simp [h]
  constructor
  · intro hfield
    cases hfield with
    | missing hmissing => simp [hmissing] at hfilter
    | given hgiven hread =>
      obtain rfl := (Prod.mk.inj (List.cons.inj (hgiven.symm.trans hfilter)).1).2
      rw [hread]
      rfl
  · intro hread
    obtain ⟨t, ht, rfl⟩ := Option.map_eq_some_iff.1 hread
    exact .given hfilter ht

/-- A second one spoils it. -/
theorem not_fieldIs_append_self (h : done.filter (·.1 == key) ≠ []) :
    ¬FieldIs (done ++ [(key, v)]) key field := by
  intro hfield
  have hfilter : (done ++ [(key, v)]).filter (·.1 == key) =
      done.filter (·.1 == key) ++ [(key, v)] := by simp
  cases hfield with
  | missing hmissing => simp [hmissing] at hfilter
  | given hgiven hread =>
    rw [hgiven] at hfilter
    exact h (by simpa using congrArg List.dropLast hfilter.symm)

/-- Both fields of a description as they are read. -/
structure Fields.Of (fields : Fields) (members : List (String × Json)) : Prop where
  module : FieldIs members "module" fields.module
  main : FieldIs members "main" fields.main

theorem Fields.of_nil : Fields.Of {} [] := ⟨.missing rfl, .missing rfl⟩

theorem Fields.Of.unique (h : fields.Of members) (h' : seen.Of members) : fields = seen := by
  have hmodule := h.module.unique h'.module
  have hmain := h.main.unique h'.main
  cases fields
  cases seen
  simp_all

theorem Fields.Of.iff_eq (h : seen.Of members) : fields.Of members ↔ fields = seen :=
  ⟨fun h' => h'.unique h, fun heq => heq ▸ h⟩

theorem Fields.Of.of_append (h : fields.Of (members ++ more)) :
    ∃ halfway : Fields, halfway.Of members := by
  obtain ⟨module, hmodule⟩ := h.module.of_append
  obtain ⟨main, hmain⟩ := h.main.of_append
  exact ⟨⟨module, main⟩, hmodule, hmain⟩

/-- A field is read off a text as the value that stands there. -/
theorem optionalText?_map (h : value? fuel depth cs = some (v, r)) :
    optionalText? (cs.map some) = (textOrNull? v).map (·, r.map some) := by
  cases fuel with
  | zero => simp [value?] at h
  | succ fuel =>
    have hread := readAs_of_value? h
    rw [optionalText?, skipBlanks_map]
    generalize skipSpace cs = text at hread
    cases hread with
    | null hword => simp [skipWord?_map hword, textOrNull?]
    | text htext => simp [take?_map htext (suffix_of_unquoteBody htext), textOrNull?]
    | true | false | emptyArray | emptyObject => rfl
    | array _ hitems =>
      obtain ⟨all, rfl⟩ := exists_of_items? hitems
      rfl
    | object _ hmembers =>
      obtain ⟨all, rfl⟩ := exists_of_members? hmembers
      rfl
    | negative hnumber =>
      obtain ⟨i, rfl⟩ | ⟨text, rfl⟩ := exists_of_number? hnumber
      · rfl
      · rfl
    | number hdigit hnumber =>
      rw [List.map_cons]
      -- a digit starts neither a text nor a word
      split
      case h_3 =>
        obtain ⟨i, rfl⟩ | ⟨text, rfl⟩ := exists_of_number? hnumber
        · rfl
        · rfl
      all_goals
        next heq =>
        obtain rfl := Option.some.inj (List.cons.inj heq).1
        cases hdigit

/-! ## All members -/

/-- A field that is met is read if it is the first of its name. -/
theorem once?_eq_some_iff (hseen : FieldIs done key other)
    (h : value? fuel depth cs = some (v, r)) : once? other (cs.map some) = some (field, q) ↔
      FieldIs (done ++ [(key, v)]) key field ∧ q = r.map some := by
  rw [once?, optionalText?_map h]
  cases hseen with
  | missing hmissing =>
    rw [if_neg (by simp), fieldIs_append_self hmissing, Option.map_map]
    cases textOrNull? v with
    | none => simp
    | some t => simp [eq_comm]
  | given hgiven =>
    have hspoilt : ¬FieldIs (done ++ [(key, v)]) key field :=
      not_fieldIs_append_self (by simp [hgiven])
    simp [hspoilt]

/-- A member is read or passed over, and the fields are then those of one member more. -/
theorem fieldValue?_eq_some_iff (hseen : seen.Of done) (h : value? fuel depth cs = some (v, r)) :
    fieldValue? fuel k seen (cs.map some) = some (fields, q) ↔
      fields.Of (done ++ [(k, v)]) ∧ q = r.map some := by
  unfold fieldValue?
  split
  · next hk =>
    subst hk
    simp only [Option.map_eq_some_iff, Prod.exists, Prod.mk.injEq,
      once?_eq_some_iff hseen.module h]
    constructor
    · rintro ⟨module, _, ⟨hmodule, rfl⟩, rfl, rfl⟩
      exact ⟨⟨hmodule, (fieldIs_append_other (by simp)).2 hseen.main⟩, rfl⟩
    · rintro ⟨hfields, rfl⟩
      have hmain := ((fieldIs_append_other (by simp)).1 hfields.main).unique hseen.main
      exact ⟨fields.module, _, ⟨hfields.module, rfl⟩, by rw [← hmain], rfl⟩
  · next hmoduleNe =>
    split
    · next hk =>
      subst hk
      simp only [Option.map_eq_some_iff, Prod.exists, Prod.mk.injEq,
        once?_eq_some_iff hseen.main h]
      constructor
      · rintro ⟨main, _, ⟨hmain, rfl⟩, rfl, rfl⟩
        exact ⟨⟨(fieldIs_append_other (by simp)).2 hseen.module, hmain⟩, rfl⟩
      · rintro ⟨hfields, rfl⟩
        have hmodule := ((fieldIs_append_other (by simp)).1 hfields.module).unique hseen.module
        exact ⟨fields.main, _, ⟨hfields.main, rfl⟩, by rw [← hmodule], rfl⟩
    · next hmainNe =>
      have hsame : seen.Of (done ++ [(k, v)]) := ⟨(fieldIs_append_other hmoduleNe).2 hseen.module,
        (fieldIs_append_other hmainNe).2 hseen.main⟩
      rw [(passes fuel).value h, Option.map_some, hsame.iff_eq, Option.some.injEq, Prod.mk.injEq,
        @eq_comm _ seen, @eq_comm _ (r.map some)]

/-- What cannot be read halfway cannot be read in the end. -/
theorem not_of_fieldValue?_eq_none (hseen : seen.Of done) (h : value? fuel depth cs = some (v, r))
    (hnone : fieldValue? fuel k seen (cs.map some) = none) (more : List (String × Json)) :
    ¬fields.Of (done ++ [(k, v)] ++ more) := by
  intro hfields
  obtain ⟨halfway, hhalfway⟩ := hfields.of_append
  have hsome := (fieldValue?_eq_some_iff hseen h).2 ⟨hhalfway, rfl⟩
  rw [hnone] at hsome
  cases hsome

/-- The fields that are read off an object are those of its members. -/
theorem fields?_eq_some_iff {all : List (String × Json)} (hseen : seen.Of done.reverse)
    (h : members? fuel depth done cs = some (.obj all, r)) :
    fields? fuel seen (cs.map some) = some (fields, q) ↔ fields.Of all ∧ q = r.map some := by
  induction fuel generalizing done seen cs with
  | zero => simp [members?] at h
  | succ fuel ih =>
    rw [fields?, skipBlanks_map]
    cases memberRead_of_members? h with
    | more hquote hname hcolon hvalue hcomma hmembers =>
      simp only [hquote, List.map_cons, take?_map hname (suffix_of_unquoteBody hname),
        skipBlanks_map, hcolon]
      cases hstep : fieldValue? fuel _ seen _ with
      | none =>
        obtain ⟨more, hmore⟩ := exists_of_members? hmembers
        rw [List.reverse_cons] at hmore
        obtain rfl := Json.obj.inj hmore
        have hnone : ¬fields.Of _ := not_of_fieldValue?_eq_none hseen hvalue hstep more
        simp only [hnone, false_and, reduceCtorEq]
      | some step =>
        obtain ⟨hfields, hrest⟩ := (fieldValue?_eq_some_iff hseen hvalue).1 hstep
        simp only [hrest, skipBlanks_map, hcomma, List.map_cons]
        exact ih (by rwa [List.reverse_cons]) hmembers
    | last hquote hname hcolon hvalue hclose hall =>
      simp only [hquote, List.map_cons, take?_map hname (suffix_of_unquoteBody hname),
        skipBlanks_map, hcolon]
      rw [List.reverse_cons] at hall
      obtain rfl := Json.obj.inj hall
      cases hstep : fieldValue? fuel _ seen _ with
      | none =>
        have hnone : ¬fields.Of _ := not_of_fieldValue?_eq_none hseen hvalue hstep []
        rw [List.append_nil] at hnone
        simp only [hnone, false_and, reduceCtorEq]
      | some step =>
        obtain ⟨hfields, hrest⟩ := (fieldValue?_eq_some_iff hseen hvalue).1 hstep
        simp [hrest, hclose, hfields.iff_eq, @eq_comm _ step.1, @eq_comm _ q]

/-! ## The description -/

theorem description?_eq_some_iff {text : List Char}
    (h : value? (2 * text.length + 2) 127 text = some (.obj members, r)) :
    description? (text.map some) = some (fields, q) ↔ fields.Of members ∧ q = r.map some := by
  have hread := readAs_of_value? h
  rw [description?, skipBlanks_map, List.length_map]
  generalize skipSpace text = start at hread
  generalize hmembers : Json.obj members = v at hread
  cases hread with
  | emptyObject hclose =>
    obtain rfl := Json.obj.inj hmembers
    simp [hclose, Fields.of_nil.iff_eq, eq_comm]
  | object hopen hbody =>
    subst hmembers
    simp only [List.map_cons, skipBlanks_map]
    split
    · next hclose =>
      obtain ⟨p, hclose⟩ := exists_of_map_some hclose
      exact absurd hclose (hopen p)
    · exact fields?_eq_some_iff (by simpa using Fields.of_nil) hbody
  | array _ hitems =>
    obtain ⟨all, rfl⟩ := exists_of_items? hitems
    cases hmembers
  | negative hnumber =>
    obtain ⟨i, rfl⟩ | ⟨text, rfl⟩ := exists_of_number? hnumber
    · cases hmembers
    · cases hmembers
  | number _ hnumber =>
    obtain ⟨i, rfl⟩ | ⟨text, rfl⟩ := exists_of_number? hnumber
    · cases hmembers
    · cases hmembers
  | _ => cases hmembers

/-- The main file is named by the fields among the members of the description. -/
theorem mainField?_eq_some_iff {bytes : ByteArray} {text named : String}
    (htext : Text.Utf8.decode? bytes = some text) (hparsed : parse? text = some (.obj members)) :
    mainField? bytes = some named ↔
      ∃ fields : Fields, fields.Of members ∧ fields.module.join.or fields.main.join = some named := by
  unfold parse? at hparsed
  dsimp only at hparsed
  split at hparsed
  · next v r hvalue =>
    split at hparsed
    · next hend =>
      obtain rfl := Option.some.inj hparsed
      simp only [mainField?, Option.bind_eq_bind, Option.bind_eq_some_iff,
        Text.Utf8.decodeEach_of_decode? htext, Prod.exists, description?_eq_some_iff hvalue]
      constructor
      · rintro ⟨fields, rest, ⟨hfields, rfl⟩, hnamed⟩
        rw [skipBlanks_map, List.isEmpty_map, if_pos hend] at hnamed
        exact ⟨fields, hfields, hnamed⟩
      · rintro ⟨fields, hfields, hnamed⟩
        refine ⟨fields, _, ⟨hfields, rfl⟩, ?_⟩
        rwa [skipBlanks_map, List.isEmpty_map, if_pos hend]
    · cases hparsed
  · cases hparsed

end Bindery.Lookup

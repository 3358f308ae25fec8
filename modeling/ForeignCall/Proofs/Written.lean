import ForeignCall.Signature.Text
import Mathlib.Data.List.Forall2

namespace ForeignCall

namespace Text

def Blanks (cs : List Char) : Prop :=
  ∀ c ∈ cs, isBlank c = true

instance (cs : List Char) : Decidable (Blanks cs) :=
  decidable_of_iff (cs.all isBlank = true) List.all_eq_true

def Padded (core cs : List Char) : Prop :=
  ∃ before after, Blanks before ∧ Blanks after ∧ cs = before ++ (core ++ after)

structure Tight (cs : List Char) : Prop where
  head : ∀ c ∈ cs.head?, isBlank c = false
  last : ∀ c ∈ cs.getLast?, isBlank c = false

section Trim

variable {core cs : List Char}

theorem Blanks.reverse (h : Blanks cs) : Blanks cs.reverse :=
  fun c hc => h c (List.mem_reverse.1 hc)

theorem exists_trimStart (cs : List Char) :
    ∃ before, Blanks before ∧ cs = before ++ trimStart cs :=
  ⟨cs.takeWhile isBlank, List.all_eq_true.1 List.all_takeWhile,
    List.takeWhile_append_dropWhile.symm⟩

theorem not_isBlank_of_mem_head?_trimStart {c : Char} (h : c ∈ (trimStart cs).head?) :
    isBlank c = false := by
  have hstop := List.head?_dropWhile_not isBlank cs
  rw [trimStart, Option.mem_def] at h
  rw [h] at hstop
  exact hstop

theorem trimStart_append_of_blanks {before : List Char} (hbefore : Blanks before)
    (hcs : ∀ c ∈ cs.head?, isBlank c = false) : trimStart (before ++ cs) = cs := by
  rw [trimStart, List.dropWhile_append_of_pos hbefore]
  cases cs with
  | nil => rfl
  | cons c cs => simp [hcs c rfl]

theorem trimEnd_eq (cs : List Char) : trimEnd cs = (trimStart cs.reverse).reverse := rfl

theorem exists_trimEnd (cs : List Char) : ∃ after, Blanks after ∧ cs = trimEnd cs ++ after := by
  obtain ⟨before, hbefore, hcs⟩ := exists_trimStart cs.reverse
  refine ⟨before.reverse, hbefore.reverse, ?_⟩
  rw [trimEnd_eq, ← List.reverse_append, ← hcs, List.reverse_reverse]

theorem trimEnd_append_of_blanks {after : List Char} (hafter : Blanks after)
    (hcs : ∀ c ∈ cs.getLast?, isBlank c = false) : trimEnd (cs ++ after) = cs := by
  rw [List.getLast?_eq_head?_reverse] at hcs
  rw [trimEnd_eq, List.reverse_append, trimStart_append_of_blanks hafter.reverse hcs,
    List.reverse_reverse]

theorem padded_trim (cs : List Char) : Padded (trim cs) cs := by
  obtain ⟨before, hbefore, hstart⟩ := exists_trimStart cs
  obtain ⟨after, hafter, hend⟩ := exists_trimEnd (trimStart cs)
  refine ⟨before, after, hbefore, hafter, ?_⟩
  rw [trim, ← hend]
  exact hstart

theorem tight_trim (cs : List Char) : Tight (trim cs) where
  head := by
    intro c hc
    obtain ⟨after, -, hend⟩ := exists_trimEnd (trimStart cs)
    have hstart : c ∈ (trimStart cs).head? := by
      rw [hend, List.head?_append, ← trim, Option.mem_def.1 hc]
      rfl
    exact not_isBlank_of_mem_head?_trimStart hstart
  last := by
    rw [trim, trimEnd_eq, List.getLast?_reverse]
    exact fun c hc => not_isBlank_of_mem_head?_trimStart hc

theorem trim_of_blanks (h : Blanks cs) : trim cs = [] := by
  rw [trim, trimStart_eq_nil_iff.2 h]
  rfl

theorem trim_of_padded (hcore : Tight core) (h : Padded core cs) : trim cs = core := by
  obtain ⟨before, after, hbefore, hafter, rfl⟩ := h
  cases core with
  | nil => exact trim_of_blanks (List.forall_mem_append.2 ⟨hbefore, hafter⟩)
  | cons c core =>
      have hstart : trimStart (before ++ (c :: core ++ after)) = c :: core ++ after :=
        trimStart_append_of_blanks hbefore hcore.head
      rw [trim, hstart, trimEnd_append_of_blanks hafter hcore.last]

theorem trim_eq_iff : trim cs = core ↔ Tight core ∧ Padded core cs := by
  constructor
  · rintro rfl
    exact ⟨tight_trim cs, padded_trim cs⟩
  · rintro ⟨hcore, h⟩
    exact trim_of_padded hcore h

theorem trim_eq_nil_iff : trim cs = [] ↔ Blanks cs := by
  refine ⟨fun h => ?_, trim_of_blanks⟩
  obtain ⟨before, after, hbefore, hafter, hcs⟩ := (trim_eq_iff.1 h).2
  rw [hcs]
  exact List.forall_mem_append.2 ⟨hbefore, hafter⟩

theorem padded_self (core : List Char) : Padded core core :=
  ⟨[], [], List.forall_mem_nil _, List.forall_mem_nil _, by rw [List.nil_append, List.append_nil]⟩

theorem not_mem_of_padded {c : Char} (hc : isBlank c = false) (hcore : c ∉ core)
    (h : Padded core cs) : c ∉ cs := by
  obtain ⟨before, after, hbefore, hafter, rfl⟩ := h
  have hblank : ∀ {blanks}, Blanks blanks → c ∉ blanks := by
    intro blanks hblanks hmem
    rw [hblanks c hmem] at hc
    cases hc
  rw [List.mem_append, List.mem_append, not_or, not_or]
  exact ⟨hblank hbefore, hcore, hblank hafter⟩

end Trim

section Pieces

variable {c : Char} {piece : List Char} {pieces : List (List Char)}

theorem not_mem_intercalate {separator : List Char} (hseparator : c ∉ separator)
    (h : ∀ piece ∈ pieces, c ∉ piece) : c ∉ separator.intercalate pieces := by
  induction pieces with
  | nil => exact List.not_mem_nil
  | cons piece pieces ih =>
      obtain ⟨hpiece, hpieces⟩ := List.forall_mem_cons.1 h
      cases pieces with
      | nil => rwa [List.intercalate_singleton]
      | cons next pieces =>
          rw [List.intercalate_cons_cons, List.mem_append, List.mem_append, not_or, not_or]
          exact ⟨⟨hpiece, hseparator⟩, ih hpieces⟩

theorem not_mem_of_mem_splitOn {cs : List Char} (h : piece ∈ cs.splitOn c) : c ∉ piece := by
  induction cs generalizing piece with
  | nil =>
      rw [List.splitOn_nil, List.mem_singleton] at h
      rw [h]
      exact List.not_mem_nil
  | cons d cs ih =>
      rw [List.splitOn_cons_eq_if_modifyHead] at h
      split at h
      · rcases List.mem_cons.1 h with rfl | h
        · exact List.not_mem_nil
        · exact ih h
      · next hd =>
          generalize hpieces : cs.splitOn c = pieces at h ih
          cases pieces with
          | nil => exact absurd hpieces (List.splitOn_ne_nil c cs)
          | cons first rest =>
              rcases List.mem_cons.1 h with rfl | h
              · rw [List.mem_cons, not_or]
                exact ⟨fun heq => hd (beq_iff_eq.2 heq.symm), ih (List.mem_cons_self ..)⟩
              · exact ih (List.mem_cons_of_mem _ h)

theorem splitOn_eq_iff {cs : List Char} : cs.splitOn c = pieces ↔
    pieces ≠ [] ∧ (∀ piece ∈ pieces, c ∉ piece) ∧ cs = [c].intercalate pieces := by
  constructor
  · rintro rfl
    exact ⟨List.splitOn_ne_nil c cs, fun _ => not_mem_of_mem_splitOn,
      (List.intercalate_splitOn c).symm⟩
  · rintro ⟨hne, hpieces, rfl⟩
    exact List.splitOn_intercalate c hpieces hne

end Pieces

end Text

namespace Signature

open Text

section Grammar

def Named (type : NativeType) (piece : List Char) : Prop :=
  Padded type.name.toList piece

inductive Listed : List NativeType → List Char → Prop where
  | none {inner : List Char} (blanks : Blanks inner) : Listed [] inner
  | some {types : List NativeType} {pieces : List (List Char)} (nonempty : types ≠ [])
      (named : List.Forall₂ Named types pieces) : Listed types ([','].intercalate pieces)

def Enclosed (inner params : List Char) : Prop :=
  Padded ('(' :: (inner ++ [')'])) params

inductive Written (sig : Signature) : List Char → Prop where
  | mk {inner params ret : List Char} (listed : Listed sig.args inner)
      (enclosed : Enclosed inner params) (named : Named sig.ret ret) :
      Written sig (params ++ '-' :: '>' :: ret)

end Grammar

section Names

variable {type : NativeType} {piece : List Char}

theorem isAlphanum_of_mem_name {c : Char} (h : c ∈ type.name.toList) : c.isAlphanum = true := by
  have hall : type.name.toList.all Char.isAlphanum = true := by
    cases type <;> decide
  exact List.all_eq_true.1 hall c h

theorem not_isBlank_of_mem_name {c : Char} (h : c ∈ type.name.toList) : isBlank c = false := by
  have hall : (type.name.toList.all fun c => !isBlank c) = true := by
    cases type <;> decide
  simpa using List.all_eq_true.1 hall c h

theorem tight_name (type : NativeType) : Tight type.name.toList :=
  ⟨fun _ h => not_isBlank_of_mem_name (List.mem_of_mem_head? h),
    fun _ h => not_isBlank_of_mem_name (List.mem_of_getLast? h)⟩

theorem not_mem_of_named {c : Char} (hblank : isBlank c = false) (hname : c.isAlphanum = false)
    (h : Named type piece) : c ∉ piece := by
  refine not_mem_of_padded hblank (fun hmem => ?_) h
  rw [isAlphanum_of_mem_name hmem] at hname
  cases hname

theorem parse_eq_ok_iff {name : String} : NativeType.parse name = .ok type ↔ name = type.name := by
  rw [NativeType.parse]
  constructor
  · intro h
    split at h
    · next hname =>
        cases h
        exact (NativeType.name_eq_of_ofName? hname).symm
    · cases h
  · rintro rfl
    rw [NativeType.ofName?_name]

theorem readType_eq_ok_iff : readType piece = .ok type ↔ Named type piece := by
  have htrim : trim piece = type.name.toList ↔ Named type piece := by
    rw [trim_eq_iff]
    exact and_iff_right (tight_name type)
  rw [← htrim, readType, ← String.ofList_inj, String.ofList_toList, ← parse_eq_ok_iff]
  cases NativeType.parse (String.ofList (trim piece)) with
  | ok found => simp
  | error e => simp

end Names

section Reading

variable {types : List NativeType} {inner params ret : List Char} {pieces : List (List Char)}

theorem readTypes_eq_ok_iff : readTypes pieces = .ok types ↔ List.Forall₂ Named types pieces := by
  induction pieces generalizing types with
  | nil =>
      rw [List.forall₂_nil_right_iff]
      exact ⟨fun h => (Except.ok.inj h).symm, fun h => congrArg Except.ok h.symm⟩
  | cons piece pieces ih =>
      rw [readTypes, List.forall₂_cons_right_iff]
      simp only [← readType_eq_ok_iff, ← ih]
      cases readType piece with
      | error e => simp
      | ok type =>
          cases readTypes pieces with
          | error e => simp [Except.map]
          | ok rest => simp [Except.map, eq_comm]

theorem not_mem_of_forall_named {c : Char} (hblank : isBlank c = false)
    (hname : c.isAlphanum = false) (h : List.Forall₂ Named types pieces) :
    ∀ piece ∈ pieces, c ∉ piece := by
  induction h with
  | nil => exact List.forall_mem_nil _
  | cons named _ ih =>
      exact List.forall_mem_cons.2 ⟨not_mem_of_named hblank hname named, ih⟩

theorem splitOn_of_named (nonempty : types ≠ []) (h : List.Forall₂ Named types pieces) :
    ([','].intercalate pieces).splitOn ',' = pieces := by
  refine splitOn_eq_iff.2 ⟨?_, not_mem_of_forall_named rfl rfl h, rfl⟩
  rintro rfl
  exact nonempty (List.forall₂_nil_right_iff.1 h)

theorem not_blanks_of_named (nonempty : types ≠ []) (h : List.Forall₂ Named types pieces) :
    ¬Blanks ([','].intercalate pieces) := by
  intro hblanks
  have hcomma : ',' ∉ [','].intercalate pieces := fun hmem => absurd (hblanks ',' hmem) (by decide)
  have hpieces := splitOn_of_named nonempty h
  rw [List.splitOn_eq_singleton hcomma] at hpieces
  rw [← hpieces] at h
  obtain ⟨type, _, hnamed, -, rfl⟩ := List.forall₂_cons_right_iff.1 h
  have hname : type.name.toList = [] := (trim_of_padded (tight_name type) hnamed).symm.trans
    (trim_of_blanks hblanks)
  revert hname
  cases type <;> decide

theorem readArguments_eq_ok_iff : readArguments inner = .ok types ↔ Listed types inner := by
  rw [readArguments]
  split
  · next htrim =>
      have hblanks := trim_eq_nil_iff.1 htrim
      constructor
      · rintro ⟨⟩
        exact .none hblanks
      · rintro (_ | ⟨nonempty, named⟩)
        · rfl
        · exact absurd hblanks (not_blanks_of_named nonempty named)
  · next htrim =>
      rw [readTypes_eq_ok_iff]
      constructor
      · intro named
        have hne : types ≠ [] := by
          rintro rfl
          exact List.splitOn_ne_nil ',' inner (List.forall₂_nil_left_iff.1 named)
        have hjoin : [','].intercalate (inner.splitOn ',') = inner := List.intercalate_splitOn ','
        rw [← hjoin]
        exact .some hne named
      · rintro (hblanks | ⟨nonempty, named⟩)
        · exact absurd (trim_of_blanks hblanks) htrim
        · rwa [splitOn_of_named nonempty named]

theorem unwrap?_trim_eq_some_iff : unwrap? (trim params) = some inner ↔ Enclosed inner params := by
  have htight : Tight ('(' :: (inner ++ [')'])) := by
    refine ⟨by simp; rfl, ?_⟩
    rw [← List.cons_append, List.getLast?_concat]
    simp; rfl
  rw [unwrap?_eq_some_iff, trim_eq_iff]
  exact and_iff_right htight

theorem splitArrow?_append (h : '-' ∉ params) :
    splitArrow? (params ++ '-' :: '>' :: ret) = some (params, ret) := by
  induction params with
  | nil => rfl
  | cons c params ih =>
      rw [List.mem_cons, not_or] at h
      rw [List.cons_append, splitArrow?.eq_3, ih h.2]
      · rfl
      · rintro rest rfl
        exact absurd rfl h.1

theorem Listed.not_mem_dash (h : Listed types inner) : '-' ∉ inner := by
  cases h with
  | none blanks => exact fun hmem => absurd (blanks '-' hmem) (by decide)
  | some _ named =>
      exact not_mem_intercalate (by decide) (not_mem_of_forall_named rfl rfl named)

theorem Enclosed.not_mem_dash (h : Enclosed inner params) (hinner : '-' ∉ inner) :
    '-' ∉ params := by
  refine not_mem_of_padded rfl ?_ h
  simpa using hinner

theorem ofChars_of_written {sig : Signature} {cs : List Char} (h : Written sig cs) :
    ofChars cs = .ok sig := by
  obtain ⟨listed, enclosed, named⟩ := h
  have harrow := enclosed.not_mem_dash listed.not_mem_dash
  simp only [ofChars, splitArrow?_append harrow, unwrap?_trim_eq_some_iff.2 enclosed,
    readArguments_eq_ok_iff.2 listed, readType_eq_ok_iff.2 named, ofTypes_args_ret]

end Reading

section Printing

theorem intercalate_cons_char (separator name : List Char) (c : Char) (pieces : List (List Char)) :
    separator.intercalate ((c :: name) :: pieces) = c :: separator.intercalate (name :: pieces) := by
  cases pieces with
  | nil => rw [List.intercalate_singleton, List.intercalate_singleton]
  | cons next pieces =>
      rw [List.intercalate_cons_cons, List.intercalate_cons_cons]
      rfl

theorem intercalate_comma_blank (name : List Char) (names : List (List Char)) :
    [',', ' '].intercalate (name :: names) =
      [','].intercalate (name :: names.map (' ' :: ·)) := by
  induction names generalizing name with
  | nil => rw [List.map_nil, List.intercalate_singleton, List.intercalate_singleton]
  | cons next names ih =>
      rw [List.intercalate_cons_cons, ih next, List.map_cons, List.intercalate_cons_cons,
        intercalate_cons_char]
      simp only [List.append_assoc, List.cons_append, List.nil_append]

theorem named_name (type : NativeType) : Named type type.name.toList :=
  padded_self type.name.toList

theorem named_blank_name (type : NativeType) : Named type (' ' :: type.name.toList) :=
  ⟨[' '], [], by decide, List.forall_mem_nil _, by rw [List.append_nil]; rfl⟩

theorem listed_text (types : List NativeType) :
    Listed types (", ".intercalate (types.map NativeType.name)).toList := by
  rw [String.toList_intercalate, List.map_map]
  cases types with
  | nil => exact .none (List.forall_mem_nil _)
  | cons type types =>
      change Listed _ ([',', ' '].intercalate _)
      rw [List.map_cons, intercalate_comma_blank, List.map_map]
      refine .some (List.cons_ne_nil type types) (.cons (named_name type) ?_)
      rw [List.forall₂_map_right_iff, List.forall₂_same]
      exact fun next _ => named_blank_name next

theorem written_text (sig : Signature) : Written sig sig.text.toList := by
  have hparams : Enclosed (", ".intercalate (sig.args.map NativeType.name)).toList
      ('(' :: ((", ".intercalate (sig.args.map NativeType.name)).toList ++ [')', ' '])) :=
    ⟨[], [' '], List.forall_mem_nil _, by decide, by simp⟩
  have h := Written.mk (listed_text sig.args) hparams (named_blank_name sig.ret)
  simpa [text] using h

theorem parse_text (sig : Signature) : parse sig.text = .ok sig :=
  ofChars_of_written (written_text sig)

theorem eq_of_text {s t : Signature} (h : s.text = t.text) : s = t := by
  have hparse := parse_text s
  rw [h, parse_text t] at hparse
  exact (Except.ok.inj hparse).symm

end Printing

theorem parse_written (sig : Signature) :
    (∀ text : String, Written sig text.toList → parse text = .ok sig) ∧
      Written sig sig.text.toList ∧ parse sig.text = .ok sig ∧
      ∀ other : Signature, other.text = sig.text → other = sig := by
  refine ⟨fun _ h => ofChars_of_written h, written_text sig, parse_text sig, fun other h => ?_⟩
  exact eq_of_text h

theorem parse_written_spread :
    let sig : Signature := ⟨[.u64, .f32], .void, by decide⟩
    let text := "\u3000(\tu64 ,\u2003f32\n)\u0085->\u00a0void "
    Written sig text.toList ∧ parse text = .ok sig := by
  intro sig text
  have hfirst : Named .u64 "\tu64 ".toList := ⟨['\t'], [' '], by decide, by decide, rfl⟩
  have hsecond : Named .f32 "\u2003f32\n".toList :=
    ⟨['\u2003'], ['\n'], by decide, by decide, rfl⟩
  have hlisted : Listed sig.args "\tu64 ,\u2003f32\n".toList :=
    .some (by decide) (.cons hfirst (.cons hsecond .nil))
  have henclosed : Enclosed "\tu64 ,\u2003f32\n".toList
      "\u3000(\tu64 ,\u2003f32\n)\u0085".toList :=
    ⟨['\u3000'], ['\u0085'], by decide, by decide, rfl⟩
  have hnamed : Named .void "\u00a0void ".toList := ⟨['\u00a0'], [' '], by decide, by decide, rfl⟩
  have htext : text.toList = "\u3000(\tu64 ,\u2003f32\n)\u0085".toList ++
      '-' :: '>' :: "\u00a0void ".toList := by decide
  have hwritten : Written sig text.toList := by
    rw [htext]
    exact .mk hlisted henclosed hnamed
  exact ⟨hwritten, (parse_written sig).1 text hwritten⟩

end Signature

end ForeignCall

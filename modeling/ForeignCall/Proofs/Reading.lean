import ForeignCall.Proofs.Written

namespace ForeignCall.Signature

open Text

section Defects

structure FirstArrow (cs params ret : List Char) : Prop where
  eq : cs = params ++ '-' :: '>' :: ret
  first : ∀ before after, cs = before ++ '-' :: '>' :: after → params.length ≤ before.length

inductive Unnamed (piece : List Char) : Defect → Prop where
  | mk {name : List Char} (tight : Tight name) (padded : Padded name piece)
      (unknown : ∀ type : NativeType, type.name.toList ≠ name) :
      Unnamed piece (.unknownType (String.ofList name))

inductive LeftmostUnnamed : List (List Char) → Defect → Prop where
  | mk {before after : List (List Char)} {piece : List Char} {e : Defect}
      (named : ∀ earlier ∈ before, ∃ type, Named type earlier) (unnamed : Unnamed piece e) :
      LeftmostUnnamed (before ++ piece :: after) e

inductive Unlisted : List Char → Defect → Prop where
  | mk {pieces : List (List Char)} {e : Defect} (apart : ∀ piece ∈ pieces, ',' ∉ piece)
      (filled : ¬Blanks ([','].intercalate pieces)) (leftmost : LeftmostUnnamed pieces e) :
      Unlisted ([','].intercalate pieces) e

inductive Misread (cs : List Char) : Defect → Prop where
  | missingArrow (absent : ¬['-', '>'] <:+: cs) : Misread cs .missingArrow
  | unparenthesized {params ret : List Char} (arrow : FirstArrow cs params ret)
      (bare : ∀ inner, ¬Enclosed inner params) : Misread cs .unparenthesized
  | argument {inner params ret : List Char} {e : Defect} (arrow : FirstArrow cs params ret)
      (enclosed : Enclosed inner params) (unlisted : Unlisted inner e) : Misread cs e
  | result {types : List NativeType} {inner params ret : List Char} {e : Defect}
      (arrow : FirstArrow cs params ret) (enclosed : Enclosed inner params)
      (listed : Listed types inner) (unnamed : Unnamed ret e) : Misread cs e
  | voidArgument {types : List NativeType} {type : NativeType} {inner params ret : List Char}
      {i : Nat} (arrow : FirstArrow cs params ret) (enclosed : Enclosed inner params)
      (listed : Listed types inner) (named : Named type ret) (void : types[i]? = some .void)
      (least : ∀ j < i, types[j]? ≠ some .void) : Misread cs (.voidArgument i)

end Defects

section Arrow

variable {cs params ret : List Char}

theorem exists_splitArrow? (before after : List Char) :
    ∃ params ret, splitArrow? (before ++ '-' :: '>' :: after) = some (params, ret) ∧
      params.length ≤ before.length := by
  induction before with
  | nil => exact ⟨[], after, rfl, Nat.le_refl 0⟩
  | cons c before ih =>
      obtain ⟨params, ret, hsplit, hle⟩ := ih
      rw [List.cons_append]
      unfold splitArrow?
      split
      · next heq => cases heq
      · exact ⟨[], _, rfl, Nat.zero_le _⟩
      · next heq =>
          cases heq
          rw [hsplit]
          exact ⟨c :: params, ret, rfl, Nat.succ_le_succ hle⟩

theorem splitArrow?_eq_none_iff : splitArrow? cs = none ↔ ¬['-', '>'] <:+: cs := by
  constructor
  · rintro hnone ⟨before, after, rfl⟩
    obtain ⟨params, ret, hsplit, -⟩ := exists_splitArrow? before after
    rw [List.append_assoc] at hnone
    cases hnone.symm.trans hsplit
  · intro habsent
    cases hsplit : splitArrow? cs with
    | none => rfl
    | some parts =>
        obtain ⟨params, ret⟩ := parts
        refine absurd ⟨params, ret, ?_⟩ habsent
        rw [eq_of_splitArrow? hsplit, List.append_assoc]
        rfl

theorem splitArrow?_eq_some_iff :
    splitArrow? cs = some (params, ret) ↔ FirstArrow cs params ret := by
  constructor
  · intro hsplit
    refine ⟨eq_of_splitArrow? hsplit, ?_⟩
    rintro before after rfl
    obtain ⟨params', ret', hsplit', hle⟩ := exists_splitArrow? before after
    cases hsplit.symm.trans hsplit'
    exact hle
  · rintro ⟨rfl, hfirst⟩
    obtain ⟨params', ret', hsplit, hle⟩ := exists_splitArrow? params ret
    have heq := eq_of_splitArrow? hsplit
    have hlen : params.length = params'.length := Nat.le_antisymm (hfirst params' ret' heq) hle
    obtain ⟨rfl, hret⟩ := List.append_inj heq hlen
    cases hret
    exact hsplit

end Arrow

section Pieces

variable {piece : List Char} {pieces : List (List Char)} {inner params : List Char} {e : Defect}

theorem parse_of_unknown {name : List Char} (h : ∀ type : NativeType, type.name.toList ≠ name) :
    NativeType.parse (String.ofList name) = .error ⟨String.ofList name⟩ := by
  rw [NativeType.parse]
  split
  · next type htype =>
      refine absurd ?_ (h type)
      rw [NativeType.name_eq_of_ofName? htype, String.toList_ofList]
  · rfl

theorem readType_eq_error_iff : readType piece = .error e ↔ Unnamed piece e := by
  constructor
  · intro h
    have hunknown : ∀ type : NativeType, type.name.toList ≠ trim piece := by
      intro type hname
      have hnamed : Named type piece := by
        rw [Named, hname]
        exact padded_trim piece
      rw [readType_eq_ok_iff.2 hnamed] at h
      cases h
    rw [readType, parse_of_unknown hunknown] at h
    cases h
    exact .mk (tight_trim piece) (padded_trim piece) hunknown
  · rintro ⟨tight, padded, unknown⟩
    rw [readType, trim_of_padded tight padded, parse_of_unknown unknown]

theorem leftmostUnnamed_of_readTypes (h : readTypes pieces = .error e) :
    LeftmostUnnamed pieces e := by
  induction pieces with
  | nil => cases h
  | cons piece pieces ih =>
      rw [readTypes] at h
      cases hpiece : readType piece with
      | error e' =>
          rw [hpiece] at h
          cases h
          have hnone : ∀ earlier ∈ ([] : List (List Char)), ∃ type, Named type earlier :=
            List.forall_mem_nil _
          exact .mk hnone (readType_eq_error_iff.1 hpiece)
      | ok type =>
          rw [hpiece] at h
          cases hpieces : readTypes pieces with
          | ok types =>
              rw [hpieces] at h
              cases h
          | error e' =>
              rw [hpieces] at h
              cases h
              obtain ⟨named, unnamed⟩ := ih hpieces
              rw [← List.cons_append]
              exact .mk (List.forall_mem_cons.2 ⟨⟨type, readType_eq_ok_iff.1 hpiece⟩, named⟩) unnamed

theorem readTypes_of_leftmostUnnamed (h : LeftmostUnnamed pieces e) :
    readTypes pieces = .error e := by
  obtain @⟨before, after, piece, e, named, unnamed⟩ := h
  induction before with
  | nil => rw [List.nil_append, readTypes, readType_eq_error_iff.2 unnamed]
  | cons earlier before ih =>
      obtain ⟨⟨type, hnamed⟩, hrest⟩ := List.forall_mem_cons.1 named
      rw [List.cons_append, readTypes, readType_eq_ok_iff.2 hnamed]
      simp only [ih hrest]
      rfl

theorem readArguments_eq_error_iff : readArguments inner = .error e ↔ Unlisted inner e := by
  constructor
  · intro h
    rw [readArguments] at h
    split at h
    · cases h
    · next htrim =>
        have hjoin : [','].intercalate (inner.splitOn ',') = inner := List.intercalate_splitOn ','
        have hfilled : ¬Blanks ([','].intercalate (inner.splitOn ',')) := by
          rw [hjoin, ← trim_eq_nil_iff]
          exact htrim
        have hunlisted := Unlisted.mk (fun _ => not_mem_of_mem_splitOn) hfilled
          (leftmostUnnamed_of_readTypes h)
        rwa [hjoin] at hunlisted
  · rintro @⟨pieces, e, apart, filled, leftmost⟩
    have hne : pieces ≠ [] := by
      rintro rfl
      exact filled (List.forall_mem_nil _)
    have hsplit := splitOn_eq_iff.2 ⟨hne, apart, rfl⟩
    rw [readArguments, if_neg (mt trim_eq_nil_iff.1 filled), hsplit]
    exact readTypes_of_leftmostUnnamed leftmost

theorem unwrap?_trim_eq_none_iff :
    unwrap? (trim params) = none ↔ ∀ inner, ¬Enclosed inner params := by
  rw [Option.eq_none_iff_forall_ne_some]
  exact forall_congr' fun inner => not_congr unwrap?_trim_eq_some_iff

theorem checkTypes_eq_error_iff {types : List NativeType} : checkTypes types = .error e ↔
    ∃ i, types[i]? = some .void ∧ (∀ j < i, types[j]? ≠ some .void) ∧ e = .voidArgument i := by
  have hfirst : ∀ i, types.idxOf? .void = some i ↔
      types[i]? = some .void ∧ ∀ j < i, types[j]? ≠ some .void := by
    intro i
    rw [List.idxOf?_eq_some_iff, List.getElem?_eq_some_iff]
    constructor
    · rintro ⟨hi, hvoid, hleast⟩
      refine ⟨⟨hi, hvoid⟩, fun j hj heq => ?_⟩
      obtain ⟨_, hjvoid⟩ := List.getElem?_eq_some_iff.1 heq
      exact hleast j hj hjvoid
    · rintro ⟨⟨hi, hvoid⟩, hleast⟩
      exact ⟨hi, hvoid, fun j hj heq => hleast j hj (List.getElem?_eq_some_iff.2 ⟨_, heq⟩)⟩
  rw [checkTypes]
  constructor
  · intro h
    split at h
    · next i hi =>
        cases h
        obtain ⟨void, least⟩ := (hfirst i).1 hi
        exact ⟨i, void, least, rfl⟩
    · cases h
  · rintro ⟨i, void, least, rfl⟩
    rw [(hfirst i).2 ⟨void, least⟩]

end Pieces

section Reading

variable {cs : List Char} {sig : Signature} {e : Defect}

theorem ofChars_of_misread (h : Misread cs e) : ofChars cs = .error e := by
  cases h with
  | missingArrow absent => simp only [ofChars, splitArrow?_eq_none_iff.2 absent]
  | unparenthesized arrow bare =>
      simp only [ofChars, splitArrow?_eq_some_iff.2 arrow, unwrap?_trim_eq_none_iff.2 bare]
  | argument arrow enclosed unlisted =>
      simp only [ofChars, splitArrow?_eq_some_iff.2 arrow, unwrap?_trim_eq_some_iff.2 enclosed,
        readArguments_eq_error_iff.2 unlisted]
  | result arrow enclosed listed unnamed =>
      simp only [ofChars, splitArrow?_eq_some_iff.2 arrow, unwrap?_trim_eq_some_iff.2 enclosed,
        readArguments_eq_ok_iff.2 listed, readType_eq_error_iff.2 unnamed]
  | voidArgument arrow enclosed listed named void least =>
      have hvoid := checkTypes_eq_error_iff.2 ⟨_, void, least, rfl⟩
      simp only [ofChars, splitArrow?_eq_some_iff.2 arrow, unwrap?_trim_eq_some_iff.2 enclosed,
        readArguments_eq_ok_iff.2 listed, readType_eq_ok_iff.2 named,
        ofTypes_eq_error_iff.2 hvoid]

theorem written_or_misread (cs : List Char) :
    (∃ sig, Written sig cs) ∨ ∃ e, Misread cs e := by
  cases harrow : splitArrow? cs with
  | none => exact .inr ⟨_, .missingArrow (splitArrow?_eq_none_iff.1 harrow)⟩
  | some parts =>
      obtain ⟨params, ret⟩ := parts
      have arrow := splitArrow?_eq_some_iff.1 harrow
      cases henclosed : unwrap? (trim params) with
      | none => exact .inr ⟨_, .unparenthesized arrow (unwrap?_trim_eq_none_iff.1 henclosed)⟩
      | some inner =>
          have enclosed := unwrap?_trim_eq_some_iff.1 henclosed
          cases hlisted : readArguments inner with
          | error e =>
              exact .inr ⟨e, .argument arrow enclosed (readArguments_eq_error_iff.1 hlisted)⟩
          | ok types =>
              have listed := readArguments_eq_ok_iff.1 hlisted
              cases hnamed : readType ret with
              | error e =>
                  exact .inr ⟨e, .result arrow enclosed listed (readType_eq_error_iff.1 hnamed)⟩
              | ok type =>
                  have named := readType_eq_ok_iff.1 hnamed
                  cases hvoid : checkTypes types with
                  | error e =>
                      obtain ⟨i, void, least, rfl⟩ := checkTypes_eq_error_iff.1 hvoid
                      exact .inr ⟨_, .voidArgument arrow enclosed listed named void least⟩
                  | ok _ =>
                      refine .inl ⟨⟨types, type, checkTypes_eq_ok_iff.1 hvoid⟩, ?_⟩
                      rw [arrow.eq]
                      exact .mk listed enclosed named

end Reading

theorem parse_exact (text : String) :
    (∀ sig, parse text = .ok sig ↔ Written sig text.toList) ∧
      ∀ e, parse text = .error e ↔ Misread text.toList e := by
  have hwritten : ∀ sig, Written sig text.toList → parse text = .ok sig :=
    fun _ => ofChars_of_written
  have hmisread : ∀ e, Misread text.toList e → parse text = .error e := fun _ => ofChars_of_misread
  refine ⟨fun sig => ⟨fun h => ?_, hwritten sig⟩, fun e => ⟨fun h => ?_, hmisread e⟩⟩
  · rcases written_or_misread text.toList with ⟨other, written⟩ | ⟨e, misread⟩
    · cases h.symm.trans (hwritten other written)
      exact written
    · cases h.symm.trans (hmisread e misread)
  · rcases written_or_misread text.toList with ⟨sig, written⟩ | ⟨other, misread⟩
    · cases h.symm.trans (hwritten sig written)
    · cases h.symm.trans (hmisread other misread)
      exact misread

example : parse "(u8 -> u8) -> u8" = .error .unparenthesized := by decide

end ForeignCall.Signature

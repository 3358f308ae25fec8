import ForeignCall.Proofs.Density
import ForeignCall.Proofs.Written

namespace ForeignCall

open Text

section Digits

-- Sixteen digits tell each other apart; bases beyond have digits in common.
variable {base m n : Nat}

theorem toDigits_eq_append (hbase : 1 < base) (n : Nat) : Nat.toDigits base n =
    (if n < base then [] else Nat.toDigits base (n / base)) ++ [(n % base).digitChar] := by
  rw [Nat.toDigits_eq_if hbase]
  split
  · next hlt => rw [Nat.mod_eq_of_lt hlt, List.nil_append]
  · rfl

theorem digitChar_injective (hm : m < 16) (hn : n < 16) (h : m.digitChar = n.digitChar) : m = n := by
  have hall : ∀ m < 16, ∀ n < 16, m.digitChar = n.digitChar → m = n := by decide
  exact hall m hm n hn h

theorem not_mem_toDigits {c : Char} (hbase : 1 < base) (hbase' : base ≤ 16)
    (h : c.isAlphanum = false) (n : Nat) : c ∉ Nat.toDigits base n := by
  have hall : ∀ n < 16, n.digitChar.isAlphanum = true := by decide
  induction n using Nat.strongRecOn with
  | ind n ih =>
      have hlast : c ≠ (n % base).digitChar := by
        rintro rfl
        rw [hall _ (Nat.lt_of_lt_of_le (Nat.mod_lt n (Nat.lt_of_succ_lt hbase)) hbase')] at h
        cases h
      rw [toDigits_eq_append hbase n, List.mem_append, List.mem_singleton, not_or]
      refine ⟨?_, hlast⟩
      split
      · exact List.not_mem_nil
      · exact ih (n / base) (Nat.div_lt_self (by omega) hbase)

theorem toDigits_injective (hbase : 1 < base) (hbase' : base ≤ 16)
    (h : Nat.toDigits base m = Nat.toDigits base n) : m = n := by
  induction m using Nat.strongRecOn generalizing n with
  | ind m ih =>
      have hlow (k : Nat) : k % base < 16 :=
        Nat.lt_of_lt_of_le (Nat.mod_lt k (Nat.lt_of_succ_lt hbase)) hbase'
      rw [toDigits_eq_append hbase m, toDigits_eq_append hbase n] at h
      obtain ⟨hfront, hlast⟩ := List.append_inj' h rfl
      have hmod : m % base = n % base :=
        digitChar_injective (hlow m) (hlow n) (List.singleton_inj.1 hlast)
      split at hfront <;> split at hfront
      · next hm hn => rwa [Nat.mod_eq_of_lt hm, Nat.mod_eq_of_lt hn] at hmod
      · exact absurd hfront.symm Nat.toDigits_ne_nil
      · exact absurd hfront Nat.toDigits_ne_nil
      · have hdiv : m / base = n / base := ih _ (Nat.div_lt_self (by omega) hbase) hfront
        rw [← Nat.div_add_mod m base, ← Nat.div_add_mod n base, hdiv, hmod]

end Digits

namespace ArgClass

theorem name_injective {c d : ArgClass} (h : c.name = d.name) : c = d := by
  revert h
  cases c <;> cases d <;> decide

theorem name_ne_nil (c : ArgClass) : c.name.toList ≠ [] := by
  cases c <;> decide

theorem not_mem_name {char : Char} (h : char.isAlphanum = false) (c : ArgClass) :
    char ∉ c.name.toList := by
  have hall : c.name.toList.all Char.isAlphanum = true := by
    cases c <;> decide
  intro hmem
  rw [List.all_eq_true.1 hall char hmem] at h
  cases h

def pieces : List ArgClass → List (List Char)
  | [] => [[]]
  | c :: cs => c.name.toList :: cs.map fun d => ' ' :: d.name.toList

theorem pieces_injective {cs ds : List ArgClass} (h : pieces cs = pieces ds) : cs = ds := by
  cases cs with
  | nil =>
      cases ds with
      | nil => rfl
      | cons d ds => exact absurd (List.cons.inj h).1.symm d.name_ne_nil
  | cons c cs =>
      cases ds with
      | nil => exact absurd (List.cons.inj h).1 c.name_ne_nil
      | cons d ds =>
          obtain ⟨hfirst, hrest⟩ := List.cons.inj h
          have hinjective : Function.Injective fun d : ArgClass => ' ' :: d.name.toList :=
            fun _ _ h => name_injective (String.toList_inj.1 (List.cons.inj h).2)
          rw [name_injective (String.toList_inj.1 hfirst), List.map_injective_iff.2 hinjective hrest]

theorem splitOn_names (classes : List ArgClass) :
    (", ".intercalate (classes.map name)).toList.splitOn ',' = pieces classes := by
  rw [splitOn_eq_iff, String.toList_intercalate, List.map_map]
  cases classes with
  | nil => exact ⟨by decide, by decide, rfl⟩
  | cons c cs =>
      refine ⟨List.cons_ne_nil _ _, ?_, ?_⟩
      · rw [pieces, List.forall_mem_cons, List.forall_mem_map]
        refine ⟨not_mem_name rfl c, fun d _ => ?_⟩
        rw [List.mem_cons, not_or]
        exact ⟨by decide, not_mem_name rfl d⟩
      · change [',', ' '].intercalate _ = _
        rw [List.map_cons, Signature.intercalate_comma_blank, List.map_map]
        rfl

end ArgClass

theorem ResultClass.name_injective {c d : ResultClass} (h : c.name = d.name) : c = d := by
  revert h
  cases c <;> cases d <;> decide

namespace Params

theorem toList_text_counted (ints floats : Nat) : (counted ints floats).text.toList =
    ('(' :: (Nat.toDigits 10 ints ++ " int".toList)) ++
      ',' :: (' ' :: (Nat.toDigits 10 floats ++ " float)".toList)) := by
  simp [text]

theorem counted_eq_of_text {ints floats ints' floats' : Nat}
    (h : (counted ints floats).text = (counted ints' floats').text) :
    counted ints floats = counted ints' floats' := by
  have hints (n : Nat) : ',' ∉ '(' :: (Nat.toDigits 10 n ++ " int".toList) := by
    simp [not_mem_toDigits]
  have hfloats (n : Nat) : ',' ∉ ' ' :: (Nat.toDigits 10 n ++ " float)".toList) := by
    simp [not_mem_toDigits]
  have hcut := congrArg String.toList h
  rw [toList_text_counted, toList_text_counted,
    List.append_cons_inj_of_notMem (hints ints) (hfloats floats)] at hcut
  have hleft : Nat.toDigits 10 ints = Nat.toDigits 10 ints' :=
    List.append_cancel_right (List.cons.inj hcut.1).2
  have hright : Nat.toDigits 10 floats = Nat.toDigits 10 floats' :=
    List.append_cancel_right (List.cons.inj hcut.2.2).2
  rw [toDigits_injective (by decide) (by decide) hleft,
    toDigits_injective (by decide) (by decide) hright]

theorem ordered_eq_of_text {cs ds : List ArgClass} (h : (ordered cs).text = (ordered ds).text) :
    ordered cs = ordered ds := by
  have hnames : ", ".intercalate (cs.map ArgClass.name) =
      ", ".intercalate (ds.map ArgClass.name) := by
    simpa [text] using h
  have hpieces : ArgClass.pieces cs = ArgClass.pieces ds := by
    rw [← ArgClass.splitOn_names, hnames, ArgClass.splitOn_names]
  rw [ArgClass.pieces_injective hpieces]

theorem text_counted_ne_text_ordered (ints floats : Nat) (classes : List ArgClass) :
    (counted ints floats).text ≠ (ordered classes).text := by
  intro h
  have hhead := congrArg (fun text => text.toList.head?) h
  simp [text] at hhead

theorem eq_of_text {p q : Params} (h : p.text = q.text) : p = q := by
  cases p with
  | counted ints floats =>
      cases q with
      | counted ints' floats' => exact counted_eq_of_text h
      | ordered ds => exact absurd h (text_counted_ne_text_ordered ints floats ds)
  | ordered cs =>
      cases q with
      | counted ints floats => exact absurd h.symm (text_counted_ne_text_ordered ints floats cs)
      | ordered ds => exact ordered_eq_of_text h

theorem dash_not_mem_text (p : Params) : '-' ∉ p.text.toList := by
  cases p with
  | counted ints floats =>
      rw [toList_text_counted]
      simp [not_mem_toDigits]
  | ordered classes =>
      have hnames : '-' ∉ [',', ' '].intercalate (classes.map (String.toList ∘ ArgClass.name)) :=
        not_mem_intercalate (by decide) (List.forall_mem_map.2 fun c _ => c.not_mem_name rfl)
      simpa [text] using hnames

theorem eq_of_entries {p q : Params} (ints : p.ints = q.ints) (floats : p.floats = q.floats)
    (order : p.order? = q.order?) : p = q := by
  cases p with
  | counted =>
      cases q with
      | counted => exact congr (congrArg counted ints) floats
      | ordered => cases order
  | ordered =>
      cases q with
      | counted => cases order
      | ordered => exact congrArg ordered (Option.some.inj order)

end Params

theorem Shape.splitArrow?_text (shape : Shape) : Signature.splitArrow? shape.text.toList =
    some (shape.params.text.toList ++ [' '], ' ' :: shape.ret.name.toList) := by
  have hdash : '-' ∉ shape.params.text.toList ++ [' '] := by
    simp [shape.params.dash_not_mem_text]
  rw [← Signature.splitArrow?_append hdash]
  simp [text]

theorem Shape.eq_of_text {s t : Shape} (h : s.text = t.text) : s = t := by
  have hcut := s.splitArrow?_text
  rw [h, t.splitArrow?_text, Option.some.injEq, Prod.mk.injEq] at hcut
  have hparams : s.params = t.params :=
    Params.eq_of_text (String.toList_inj.1 (List.append_cancel_right hcut.1).symm)
  have hret : s.ret = t.ret :=
    ResultClass.name_injective (String.toList_inj.1 (List.cons.inj hcut.2).2.symm)
  rw [Shape.mk.injEq]
  exact ⟨hparams, hret⟩

theorem Shape.eq_iff_entries {s t : Shape} : s = t ↔ s.ints = t.ints ∧ s.floats = t.floats ∧
    s.ret = t.ret ∧ s.params.order? = t.params.order? := by
  constructor
  · rintro rfl
    exact ⟨rfl, rfl, rfl, rfl⟩
  · rintro ⟨hints, hfloats, hret, horder⟩
    rw [Shape.mk.injEq]
    exact ⟨Params.eq_of_entries hints hfloats horder, hret⟩

structure Plan.SameKey (p q : Plan) : Prop where
  ints : p.layout.ints = q.layout.ints
  floats : p.layout.floats = q.layout.floats
  ret : p.shape.ret = q.shape.ret
  order : p.shape.params.order? = q.shape.params.order?

namespace Signature

variable {a b : Signature} {file file' : Option Registers}

theorem shape_planOf_eq_iff : (a.planOf file).shape = (b.planOf file').shape ↔
    (a.planOf file).SameKey (b.planOf file') := by
  rw [Shape.eq_iff_entries, ints_planOf, ints_planOf, floats_planOf, floats_planOf]
  constructor
  · rintro ⟨hints, hfloats, hret, horder⟩
    exact ⟨hints, hfloats, hret, horder⟩
  · rintro ⟨hints, hfloats, hret, horder⟩
    exact ⟨hints, hfloats, hret, horder⟩

theorem shape_text_eq_iff {limits limits' : Limits} {p q : Plan}
    (hp : a.planFor limits file = .ok p) (hq : b.planFor limits' file' = .ok q) :
    (p.shape.text = q.shape.text ↔ p.shape = q.shape) ∧ (p.shape = q.shape ↔ p.SameKey q) := by
  obtain ⟨-, rfl⟩ := planFor_eq_ok_iff.1 hp
  obtain ⟨-, rfl⟩ := planFor_eq_ok_iff.1 hq
  exact ⟨⟨Shape.eq_of_text, congrArg Shape.text⟩, shape_planOf_eq_iff⟩

theorem shape_text_eq_iff_across_hosts :
    let a : Signature := ⟨[.i8, .f32], .u16, by decide⟩
    let b : Signature := ⟨[.f64, .u64], .i32, by decide⟩
    ∃ p q r, a.planFor .standard (some ⟨1, 1⟩) = .ok p ∧ b.planFor ⟨2⟩ (some .host) = .ok q ∧
      a.planFor .standard none = .ok r ∧ p.shape.text = "(1 int, 1 float) -> int" ∧
      r.shape.text = "[int, f32] -> int" ∧ p.shape = q.shape ∧ p.SameKey q ∧ ¬p.SameKey r := by
  intro a b
  have hp : a.planFor .standard (some ⟨1, 1⟩) = .ok (a.planOf (some ⟨1, 1⟩)) := rfl
  have hq : b.planFor ⟨2⟩ (some .host) = .ok (b.planOf (some .host)) := rfl
  have hr : a.planFor .standard none = .ok (a.planOf none) := rfl
  have hcounted : (a.planOf (some ⟨1, 1⟩)).shape.text = "(1 int, 1 float) -> int" := by decide
  have hordered : (a.planOf none).shape.text = "[int, f32] -> int" := by decide
  obtain ⟨hpq, hkey⟩ := shape_text_eq_iff hp hq
  obtain ⟨hpr, hkey'⟩ := shape_text_eq_iff hp hr
  have hshape := hpq.1 rfl
  refine ⟨_, _, _, hp, hq, hr, hcounted, hordered, hshape, hkey.1 hshape, ?_⟩
  rw [← hkey', ← hpr, hcounted, hordered]
  decide

end Signature

end ForeignCall

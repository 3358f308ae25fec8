import ForeignCall.Signature
import ForeignCall.Text.Blank

namespace ForeignCall.Signature

def text (sig : Signature) : String :=
  "(" ++ ", ".intercalate (sig.args.map NativeType.name) ++ ") -> " ++ sig.ret.name

def splitArrow? : List Char → Option (List Char × List Char)
  | [] => none
  | '-' :: '>' :: rest => some ([], rest)
  | c :: rest => (splitArrow? rest).map fun parts => (c :: parts.1, parts.2)

theorem eq_of_splitArrow? {cs params ret : List Char} (h : splitArrow? cs = some (params, ret)) :
    cs = params ++ '-' :: '>' :: ret := by
  fun_induction splitArrow? cs generalizing params with
  | case1 => simp at h
  | case2 rest =>
      simp only [Option.some.injEq, Prod.mk.injEq] at h
      simp [← h.1, ← h.2]
  | case3 c rest _ ih =>
      simp only [Option.map_eq_some_iff, Prod.mk.injEq, Prod.exists] at h
      obtain ⟨p, r, hpr, rfl, rfl⟩ := h
      simp [ih hpr]

def unwrap? : List Char → Option (List Char)
  | '(' :: rest => if rest.getLast? = some ')' then some rest.dropLast else none
  | _ => none

theorem unwrap?_eq_some_iff {cs inner : List Char} :
    unwrap? cs = some inner ↔ cs = '(' :: (inner ++ [')']) := by
  constructor
  · intro h
    unfold unwrap? at h
    split at h
    · next rest =>
        split at h
        · next hlast =>
            obtain ⟨init, rfl⟩ := List.getLast?_eq_some_iff.1 hlast
            simp_all
        · simp at h
    · simp at h
  · rintro rfl
    simp [unwrap?]

def readType (cs : List Char) : Except Defect NativeType :=
  match NativeType.parse (String.ofList (Text.trim cs)) with
  | .ok type => .ok type
  | .error e => .error (.unknownType e.name)

def readTypes : List (List Char) → Except Defect (List NativeType)
  | [] => .ok []
  | piece :: pieces =>
      match readType piece with
      | .error e => .error e
      | .ok type => (readTypes pieces).map (type :: ·)

def readArguments (inner : List Char) : Except Defect (List NativeType) :=
  if Text.trim inner = [] then .ok [] else readTypes (inner.splitOn ',')

def ofChars (cs : List Char) : Except Defect Signature :=
  match splitArrow? cs with
  | none => .error .missingArrow
  | some (params, ret) =>
      match unwrap? (Text.trim params) with
      | none => .error .unparenthesized
      | some inner =>
          match readArguments inner with
          | .error e => .error e
          | .ok args =>
              match readType ret with
              | .error e => .error e
              | .ok ret => ofTypes args ret

def parse (text : String) : Except Defect Signature :=
  ofChars text.toList

end ForeignCall.Signature

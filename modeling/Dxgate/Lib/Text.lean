import Mathlib.Data.List.Basic
import Mathlib.Data.String.Basic

/-! # String operations read off the list of characters

Each operation is structural on the characters, so a closed use of it computes in the kernel.
-/

namespace Text

def startsWith (s head : String) : Bool := head.toList.isPrefixOf s.toList

def endsWith (s tail : String) : Bool := tail.toList.isSuffixOf s.toList

def contains (s part : String) : Bool := s.toList.tails.any fun rest => part.toList.isPrefixOf rest

/-- What follows `head`, when `s` begins with it. -/
def dropHead (s head : String) : Option String :=
  if startsWith s head then some (String.ofList (s.toList.drop head.toList.length)) else none

def split (s : String) (sep : Char) : List String := (s.toList.splitOn sep).map String.ofList

/-- The part after the last separator, when there is one. -/
def afterLast (s : String) (sep : Char) : Option String :=
  if sep ∈ s.toList then some (String.ofList (s.toList.reverse.takeWhile (· ≠ sep)).reverse) else none

def eqIgnoreAsciiCase (s t : String) : Bool := s.toList.map Char.toLower = t.toList.map Char.toLower

def digit? (c : Char) : Option Nat := if '0' ≤ c ∧ c ≤ '9' then some (c.toNat - '0'.toNat) else none

def decimal? (chars : List Char) : Option Nat :=
  chars.foldl (fun acc c => acc.bind fun n => (digit? c).map fun d => 10 * n + d) (some 0)

/-- An unsigned decimal below `bound`: one optional plus sign, then at least one digit. -/
def parseBelow (bound : Nat) (s : String) : Option Nat :=
  let digits := match s.toList with
    | '+' :: rest => rest
    | chars => chars
  if digits = [] then none else (decimal? digits).filter (· < bound)

def joinWith (sep : String) : List String → String
  | [] => ""
  | [s] => s
  | s :: rest => s ++ sep ++ joinWith sep rest

theorem eqIgnoreAsciiCase_refl (s : String) : eqIgnoreAsciiCase s s := decide_eq_true rfl

theorem eqIgnoreAsciiCase_congr {s s' t t' : String} (hs : eqIgnoreAsciiCase s s')
    (ht : eqIgnoreAsciiCase t t') : eqIgnoreAsciiCase s t = eqIgnoreAsciiCase s' t' := by
  rw [eqIgnoreAsciiCase, eqIgnoreAsciiCase, of_decide_eq_true hs, of_decide_eq_true ht]

theorem eqIgnoreAsciiCase_symm {s t : String} (h : eqIgnoreAsciiCase s t) : eqIgnoreAsciiCase t s :=
  decide_eq_true (of_decide_eq_true h).symm

theorem eq_of_toLower_eq {c d : Char} (h : c.toLower = d) (hd : d < 'A') : c = d := by
  delta Char.toLower at h
  split at h
  · rename_i hUpper
    have hVal : c.val + ('a'.val - 'A'.val) = d.val := congrArg Char.val h
    have hSum := congrArg UInt32.toNat hVal
    rw [UInt32.toNat_add] at hSum
    have hLow : 65 ≤ c.val.toNat := UInt32.le_iff_toNat_le.mp hUpper.1
    have hHigh : c.val.toNat ≤ 90 := UInt32.le_iff_toNat_le.mp hUpper.2
    have hSmall : d.val.toNat < 65 := UInt32.lt_iff_toNat_lt.mp hd
    have hStep : ('a'.val - 'A'.val).toNat = 32 := rfl
    omega
  · exact h

/-- A text of one character that is no letter has no other spelling. -/
theorem eq_of_eqIgnoreAsciiCase_symbol {s t : String} {c : Char} (h : eqIgnoreAsciiCase s t)
    (hc : c < 'A') (ht : t.toList = [c]) : s = t := by
  have hLists := of_decide_eq_true h
  rw [ht, List.map_singleton] at hLists
  obtain ⟨d, hs, hd⟩ := List.map_eq_singleton_iff.mp hLists
  rw [String.ext_iff, hs, ht, eq_of_toLower_eq (hd.trans ?_) hc]
  exact dif_neg fun hUpper => absurd hc (Nat.not_lt.mpr hUpper.1)

theorem length_eq_of_eqIgnoreAsciiCase {s t : String} (h : eqIgnoreAsciiCase s t) :
    s.toList.length = t.toList.length := by
  simpa using congrArg List.length (of_decide_eq_true h)

theorem startsWith_iff {s head : String} : startsWith s head ↔ ∃ rest, s = head ++ rest := by
  rw [startsWith, List.isPrefixOf_iff_prefix]
  constructor
  · rintro ⟨rest, hRest⟩
    exact ⟨String.ofList rest, String.toList_inj.mp (by simp [hRest])⟩
  · rintro ⟨rest, rfl⟩
    exact ⟨rest.toList, by simp⟩

/-- A head without the separator does not reach behind it. -/
theorem startsWith_append_sep {s head sep : String} {c : Char} (tail : String)
    (hSep : sep.toList = [c]) (hHead : c ∉ head.toList) :
    startsWith (s ++ sep ++ tail) head = startsWith s head := by
  rw [Bool.eq_iff_iff, startsWith, startsWith, List.isPrefixOf_iff_prefix, List.isPrefixOf_iff_prefix,
    String.toList_append, String.toList_append, hSep, List.append_assoc]
  constructor
  · intro hPrefix
    rcases List.prefix_or_prefix_of_prefix hPrefix (List.prefix_append s.toList _) with hShort | hLong
    · exact hShort
    · obtain ⟨rest, hRest⟩ := hLong
      rw [← hRest, List.prefix_append_right_inj] at hPrefix
      cases rest with
      | nil =>
        rw [List.append_nil] at hRest
        exact hRest ▸ List.prefix_rfl
      | cons d rest =>
        -- the head would go on with the separator
        obtain rfl : d = c := (List.cons_prefix_cons.mp hPrefix).1
        rw [← hRest] at hHead
        exact absurd (List.mem_append_right _ List.mem_cons_self) hHead
  · intro hPrefix
    exact hPrefix.trans (List.prefix_append _ _)

/-- A part without the separator is read back from in front of it. -/
theorem append_sep_inj {s t rest rest' sep : String} {c : Char} (hSep : sep.toList = [c])
    (hs : c ∉ s.toList) (ht : c ∉ t.toList) (h : s ++ (sep ++ rest) = t ++ (sep ++ rest')) :
    s = t ∧ rest = rest' := by
  have hLists := congrArg String.toList h
  simp only [String.toList_append, hSep, List.cons_append, List.nil_append] at hLists
  rcases List.append_eq_append_iff.mp hLists with ⟨mid, hMid, hRest⟩ | ⟨mid, hMid, hRest⟩
  · cases mid with
    | nil =>
      rw [List.append_nil] at hMid
      rw [List.nil_append] at hRest
      exact ⟨String.toList_inj.mp hMid.symm, String.toList_inj.mp (List.cons.inj hRest).2⟩
    | cons d mid =>
      obtain rfl : c = d := (List.cons.inj hRest).1
      exact absurd (hMid ▸ List.mem_append_right _ List.mem_cons_self) ht
  · cases mid with
    | nil =>
      rw [List.append_nil] at hMid
      rw [List.nil_append] at hRest
      exact ⟨String.toList_inj.mp hMid, String.toList_inj.mp (List.cons.inj hRest).2.symm⟩
    | cons d mid =>
      obtain rfl : c = d := (List.cons.inj hRest).1
      exact absurd (hMid ▸ List.mem_append_right _ List.mem_cons_self) hs

/-- A part without the separator is read back from in front of any text that has it. -/
theorem append_inj_of_mem {s t mid rest rest' : String} {c : Char} (hMid : c ∈ mid.toList)
    (hs : c ∉ s.toList) (ht : c ∉ t.toList) (h : s ++ (mid ++ rest) = t ++ (mid ++ rest')) :
    s = t ∧ rest = rest' := by
  obtain ⟨front, back, hSplit, hFront⟩ := List.eq_append_cons_of_mem hMid
  have hMidEq : mid = String.ofList front ++ (String.singleton c ++ String.ofList back) := by
    apply String.toList_inj.mp
    simp [hSplit]
  have hAll : (s ++ String.ofList front) ++ (String.singleton c ++ (String.ofList back ++ rest)) =
      (t ++ String.ofList front) ++ (String.singleton c ++ (String.ofList back ++ rest')) := by
    rw [hMidEq] at h
    simpa only [String.append_assoc] using h
  have hSep : (String.singleton c).toList = [c] := String.toList_singleton c
  have hs' : c ∉ (s ++ String.ofList front).toList := by simp [hs, hFront]
  have ht' : c ∉ (t ++ String.ofList front).toList := by simp [ht, hFront]
  obtain ⟨hBefore, hAfter⟩ := append_sep_inj hSep hs' ht' hAll
  exact ⟨(String.append_left_inj _).mp hBefore, (String.append_right_inj _).mp hAfter⟩

theorem endsWith_iff {s tail : String} : endsWith s tail ↔ ∃ front, s = front ++ tail := by
  rw [endsWith, List.isSuffixOf_iff_suffix]
  constructor
  · rintro ⟨front, hFront⟩
    exact ⟨String.ofList front, String.toList_inj.mp (by simp [hFront])⟩
  · rintro ⟨front, rfl⟩
    exact ⟨front.toList, by simp⟩

theorem dropHead_eq_some {s head rest : String} : dropHead s head = some rest ↔ s = head ++ rest := by
  rw [dropHead]
  constructor
  · intro h
    split at h
    · rename_i hHead
      obtain ⟨tail, rfl⟩ := startsWith_iff.mp hHead
      cases h
      simp
    · cases h
  · rintro rfl
    rw [if_pos (startsWith_iff.mpr ⟨rest, rfl⟩)]
    simp

theorem head?_append {s : String} {c : Char} (t : String) (h : s.toList.head? = some c) :
    (s ++ t).toList.head? = some c := by
  rw [String.toList_append, List.head?_append, h, Option.some_or]

theorem getLast?_append (s : String) {t : String} {c : Char} (h : t.toList.getLast? = some c) :
    (s ++ t).toList.getLast? = some c := by
  rw [String.toList_append, List.getLast?_append, h, Option.some_or]

/-! ## The part in front of the first separator -/

theorem headD_split_of_free {s : String} {c : Char} (h : c ∉ s.toList) : (split s c).headD s = s := by
  rw [split, List.splitOn_eq_singleton h, List.map_singleton, List.headD_cons, String.ofList_toList]

theorem headD_split_append {s sep : String} {c : Char} (hSep : sep.toList = [c]) (h : c ∉ s.toList)
    (rest : String) : (split (s ++ sep ++ rest) c).headD (s ++ sep ++ rest) = s := by
  rw [split, String.toList_append, String.toList_append, hSep, List.append_assoc, List.singleton_append,
    List.splitOn_append_cons_self_of_not_mem h, List.map_cons, List.headD_cons, String.ofList_toList]

theorem headD_split_eq_self_iff {s : String} {c : Char} : (split s c).headD s = s ↔ c ∉ s.toList := by
  refine ⟨fun hSelf hMem => ?_, headD_split_of_free⟩
  obtain ⟨front, back, hSplit, hFront⟩ := List.eq_append_cons_of_mem hMem
  have hHead : (split s c).headD s = String.ofList front := by
    rw [split, hSplit, List.splitOn_append_cons_self_of_not_mem hFront, List.map_cons, List.headD_cons]
  rw [hSelf] at hHead
  have hShort := congrArg (fun text : String => text.toList.length) hHead
  simp only [hSplit, String.toList_ofList, List.length_append, List.length_cons] at hShort
  omega

end Text

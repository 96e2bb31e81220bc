/-
This file is about the list of the names that are seen from a scope. Names are
put into it one by one, each in its place, so the list increases strictly, and it
holds just the names that are bound somewhere on the way outward. Every scope puts
its names in order with those from further out, which are in order already, so it
is as if all names were put in order at once.

Names are compared by their code points. The bytes of a text are made so that
they compare in the same way: the first byte says how many bytes a character has,
and more bytes mean a greater code point.
-/

import Monkey.Proofs.Scanning.Longest
import Monkey.Proofs.Scopes

namespace Monkey

/-! ### The order of bytes -/

namespace Token

theorem ofNat_lt_ofNat {first second : Nat} (small : first < 256) (small' : second < 256) :
    UInt8.ofNat first < UInt8.ofNat second ↔ first < second := by
  rw [UInt8.lt_iff_toNat_lt, UInt8.toNat_ofNat_of_lt' small, UInt8.toNat_ofNat_of_lt' small']

theorem ofNat_eq_ofNat {first second : Nat} (small : first < 256) (small' : second < 256) :
    UInt8.ofNat first = UInt8.ofNat second ↔ first = second := by
  rw [← UInt8.toNat_inj, UInt8.toNat_ofNat_of_lt' small, UInt8.toNat_ofNat_of_lt' small']

/-- The bytes of a lesser character come before those of a greater one, whatever follows. -/
theorem encode_lt {first second : Char} (less : first < second) (rest rest' : List UInt8) :
    String.utf8EncodeChar first ++ rest < String.utf8EncodeChar second ++ rest' := by
  have less : first.val.toNat < second.val.toNat := less
  have bounded : second.val.toNat < 0x110000 := by
    have := second.valid
    simp only [UInt32.isValidChar, Nat.isValidChar] at this
    omega
  unfold String.utf8EncodeChar
  generalize first.val.toNat = code at less
  generalize second.val.toNat = code' at less bounded
  -- The greater code is greater in the first digit in which they differ.
  have digit : code / 64 < code' / 64 ∨ code / 64 = code' / 64 ∧ code % 64 < code' % 64 := by omega
  have digit' : code / 4096 < code' / 4096 ∨ code / 4096 = code' / 4096 ∧
      (code / 64 % 64 < code' / 64 % 64 ∨ code / 64 = code' / 64) := by omega
  have digit'' : code / 262144 < code' / 262144 ∨ code / 262144 = code' / 262144 ∧
      (code / 4096 % 64 < code' / 4096 % 64 ∨ code / 4096 = code' / 4096) := by omega
  have top : code / 262144 % 8 = code / 262144 := Nat.mod_eq_of_lt (by omega)
  have top' : code' / 262144 % 8 = code' / 262144 := Nat.mod_eq_of_lt (by omega)
  simp only
  repeat' split
  all_goals
    simp (disch := omega) only [List.cons_append, List.nil_append, List.cons_lt_cons_iff,
      ofNat_lt_ofNat, ofNat_eq_ofNat]
    omega

theorem bytesOf_lt {first second : String} (less : first < second) :
    bytesOf first < bytesOf second := by
  rw [← String.ofList_toList (s := first), ← String.ofList_toList (s := second), bytesOf_ofList,
    bytesOf_ofList]
  replace less := String.lt_iff.mp less
  generalize first.toList = characters at less
  generalize second.toList = characters' at less
  induction characters generalizing characters' with
  | nil =>
    cases characters' with
    | nil => exact absurd less (List.lt_irrefl _)
    | cons character' rest' =>
      obtain ⟨head, tail, starts⟩ :=
        List.exists_cons_of_ne_nil (String.utf8EncodeChar_ne_nil (c := character'))
      rw [List.flatMap_nil, List.flatMap_cons, starts]
      exact List.nil_lt_cons head _
  | cons character rest inductionHypothesis =>
    cases characters' with
    | nil => exact absurd less (List.not_lt_nil _)
    | cons character' rest' =>
      rw [List.flatMap_cons, List.flatMap_cons]
      obtain before | ⟨rfl, after⟩ := List.cons_lt_cons_iff.mp less
      · exact encode_lt before _ _
      · exact List.append_left_lt (inductionHypothesis _ after)

end Token

/-! ### Increasing lists -/

namespace Store

theorem mem_insertName {name other : String} {names : List String} :
    other ∈ insertName name names ↔ other = name ∨ other ∈ names := by
  induction names with
  | nil => simp [insertName]
  | cons first rest inductionHypothesis =>
    unfold insertName
    split
    · exact List.mem_cons
    split
    · rename_i same
      rw [same]
      simp
    · rw [List.mem_cons, inductionHypothesis, List.mem_cons]
      exact or_left_comm

theorem insertName_increasing {name : String} {names : List String}
    (increasing : names.Pairwise (· < ·)) : (insertName name names).Pairwise (· < ·) := by
  induction names with
  | nil => exact List.pairwise_singleton _ _
  | cons first rest inductionHypothesis =>
    obtain ⟨least, others⟩ := List.pairwise_cons.mp increasing
    unfold insertName
    split
    · rename_i before
      exact .cons (List.forall_mem_cons.mpr
        ⟨before, fun other member => String.lt_trans before (least other member)⟩) increasing
    split
    · exact increasing
    · rename_i notBefore different
      have after : first < name := Std.lt_of_le_of_ne notBefore (Ne.symm different)
      refine .cons (fun other member => ?_) (inductionHypothesis others)
      obtain rfl | inside := mem_insertName.mp member
      · exact after
      · exact least other inside

theorem mem_sortNames {name : String} {names : List String} :
    name ∈ sortNames names ↔ name ∈ names := by
  induction names with
  | nil => exact Iff.rfl
  | cons first rest inductionHypothesis =>
    show name ∈ insertName first (sortNames rest) ↔ _
    rw [mem_insertName, inductionHypothesis, List.mem_cons]

theorem sortNames_increasing (names : List String) : (sortNames names).Pairwise (· < ·) := by
  induction names with
  | nil => exact .nil
  | cons first rest inductionHypothesis => exact insertName_increasing inductionHypothesis

theorem insertName_of_least {name : String} {names : List String}
    (least : ∀ other ∈ names, name < other) : insertName name names = name :: names := by
  cases names with
  | nil => rfl
  | cons first rest => exact if_pos (least first List.mem_cons_self)

/-- Names that are in order stay as they are. -/
theorem sortNames_of_increasing {names : List String} (increasing : names.Pairwise (· < ·)) :
    sortNames names = names := by
  induction names with
  | nil => rfl
  | cons first rest inductionHypothesis =>
    obtain ⟨least, others⟩ := List.pairwise_cons.mp increasing
    show insertName first (sortNames rest) = first :: rest
    rw [inductionHypothesis others, insertName_of_least least]

/-- It does not matter whether some of the names were in order before. -/
theorem sortNames_append_sorted (names others : List String) :
    sortNames (names ++ sortNames others) = sortNames (names ++ others) := by
  have again := sortNames_of_increasing (sortNames_increasing others)
  unfold sortNames at *
  rw [List.foldr_append, List.foldr_append, again]

/-! ### Names in sight -/

theorem namesWithin_eq (store : Store) (stem : String) (limit : Nat) (scope : ScopeId) :
    store.namesWithin stem limit scope =
      sortNames (((store.chainWithin limit scope).flatMap Scope.names).filter
        (Text.hasStem stem)) := by
  induction limit generalizing scope with
  | zero => rfl
  | succ limit inductionHypothesis =>
    unfold namesWithin chainWithin
    cases store.scopes[scope]? with
    | none => rfl
    | some found =>
      cases around : found.outer with
      | none => simp only [around, List.flatMap_singleton]
      | some outer =>
        simp only [around, List.flatMap_cons, List.filter_append]
        rw [inductionHypothesis, sortNames_append_sorted]

/-- The names of all scopes on the way outward are put in order as if it were done at once. -/
theorem namesWithStem_eq (store : Store) (scope : ScopeId) (stem : String) :
    store.namesWithStem scope stem =
      sortNames (((store.chain scope).flatMap Scope.names).filter (Text.hasStem stem)) :=
  store.namesWithin_eq stem (scope + 1) scope

theorem namesWithStem_increasing (store : Store) (scope : ScopeId) (stem : String) :
    (store.namesWithStem scope stem).Pairwise (· < ·) := by
  rw [namesWithStem_eq]
  exact sortNames_increasing _

theorem isSome_find?_iff {scope : Scope} {name : String} :
    (scope.find? name).isSome ↔ name ∈ scope.names := by
  rw [Option.isSome_iff_ne_none, ne_eq, Scope.find?_eq_none_iff, not_not]

/-- The names that are listed are those that are found. -/
theorem mem_namesWithStem {store : Store} {scope : ScopeId} {stem name : String} :
    name ∈ store.namesWithStem scope stem ↔
      stem.toList <+: name.toList ∧ (store.get? scope name).isSome := by
  rw [namesWithStem_eq]
  unfold get? Text.hasStem
  rw [mem_sortNames, List.mem_filter, List.mem_flatMap, List.findSome?_isSome_iff, and_comm,
    List.isPrefixOf_iff_prefix]
  simp only [isSome_find?_iff]

end Store

end Monkey

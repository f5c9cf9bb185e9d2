import ContractAudit.Number

/-!
# JSON values

A value keeps what a reader of JSON text can tell apart: whole and fractional numbers, the order of
an object's members, and strings whose escapes leave a surrogate without its partner.

`Value.same` is equality of content: numbers compare by exact value, `true` and `false` as one and
zero, and members in any order.

Main statements: `dedup_sublist`, `distinct_dedup` and `dedup_of_distinct`, by which `dedup` keeps
items of the list, in their order and each content once, and changes nothing when done again.
-/

namespace ContractAudit.Json

/-- A string: a text, or code points among which some surrogate stands alone. -/
inductive Str where
  | text (s : String)
  | unpaired (points : List Nat)
deriving DecidableEq, Repr, Inhabited

namespace Str

/-- The code points. -/
def points : Str → List Nat
  | .text s => s.toList.map Char.toNat
  | .unpaired points => points

/-- Whether the code point is a character. -/
def isCharacter (n : Nat) : Bool :=
  n < 0xd800 || (0xe000 ≤ n && n < 0x110000)

/-- The string of the code points, a text if all are characters. -/
def ofPoints (points : List Nat) : Str :=
  if points.all isCharacter then .text (String.ofList (points.map Char.ofNat))
  else .unpaired points

end Str

/-- A JSON value. -/
inductive Value where
  | null
  | bool (b : Bool)
  | number (n : Number)
  | string (s : Str)
  | list (items : List Value)
  | object (members : List (Str × Value))
deriving Inhabited

namespace Value

/-- A value that is a text. -/
def text (s : String) : Value := .string (.text s)

/-- A value that is a whole number. -/
def int (n : Int) : Value := .number (.int n)

/-- A value that is a binary64 number. -/
def real (x : Binary64) : Value := .number (.real x)

/-- An object with texts as keys. -/
def record (members : List (String × Value)) : Value :=
  .object (members.map fun (key, value) => (.text key, value))

/-! ## Members -/

/-- The value of a key among members. -/
def lookup (key : Str) : List (Str × Value) → Option Value
  | [] => none
  | (k, v) :: rest => if k = key then some v else lookup key rest

/-- The members with `key` bound to `value`: in its place if the key is there, else last. -/
def insert (key : Str) (value : Value) : List (Str × Value) → List (Str × Value)
  | [] => [(key, value)]
  | (k, v) :: rest => if k = key then (k, value) :: rest else (k, v) :: insert key value rest

theorem lookup_insert_self (key : Str) (value : Value) (members : List (Str × Value)) :
    lookup key (insert key value members) = some value := by
  induction members with
  | nil => simp only [insert, lookup, if_true]
  | cons member rest ih =>
    obtain ⟨k', v⟩ := member
    by_cases hk : k' = key
    · simp only [insert, if_pos hk, lookup]
    · simp only [insert, if_neg hk, lookup, ih]

theorem lookup_insert_of_ne {key k : Str} (h : key ≠ k) (value : Value)
    (members : List (Str × Value)) : lookup k (insert key value members) = lookup k members := by
  induction members with
  | nil => simp only [insert, lookup, if_neg h]
  | cons member rest ih =>
    obtain ⟨k', v⟩ := member
    by_cases hk : k' = key
    · subst hk
      simp only [insert, if_true, lookup, if_neg h]
    · simp only [insert, if_neg hk, lookup, ih]

/-- The members without those of a key. -/
def erase (key : Str) (members : List (Str × Value)) : List (Str × Value) :=
  members.filter fun member => decide (member.1 ≠ key)

theorem lookup_erase_self (key : Str) (members : List (Str × Value)) :
    lookup key (erase key members) = none := by
  induction members with
  | nil => rfl
  | cons member rest ih =>
    obtain ⟨k', v⟩ := member
    rw [erase] at ih ⊢
    by_cases hk : k' = key
    · rw [List.filter_cons_of_neg (by simp [hk]), ih]
    · rw [List.filter_cons_of_pos (by simpa using hk), lookup, if_neg hk, ih]

theorem lookup_erase_of_ne {key k : Str} (h : key ≠ k) (members : List (Str × Value)) :
    lookup k (erase key members) = lookup k members := by
  induction members with
  | nil => rfl
  | cons member rest ih =>
    obtain ⟨k', v⟩ := member
    rw [erase] at ih ⊢
    by_cases hk : k' = key
    · subst hk
      rw [List.filter_cons_of_neg (by simp), ih, lookup, if_neg h]
    · rw [List.filter_cons_of_pos (by simpa using hk), lookup, lookup, ih]

/-- The value of a key of an object. -/
def get? (key : String) : Value → Option Value
  | .object members => lookup (.text key) members
  | _ => none

/-! ## Equality of content -/

/-- A truth value or a number as a number. -/
def number? : Value → Option Number
  | .bool b => some (.int (if b then 1 else 0))
  | .number n => some n
  | _ => none

mutual

/-- Whether two values have the same content. -/
def same : Value → Value → Bool
  | .null, .null => true
  | .string a, .string b => decide (a = b)
  | .list a, .list b => sameItems a b
  | .object a, .object b => decide (a.length = b.length) && sameMembers a b
  | .bool a, y => match y.number? with
    | some n => (Number.int (if a then 1 else 0)).same n
    | none => false
  | .number m, y => match y.number? with
    | some n => m.same n
    | none => false
  | _, _ => false

/-- Whether two lists have the same items in the same order. -/
def sameItems : List Value → List Value → Bool
  | [], [] => true
  | x :: xs, y :: ys => same x y && sameItems xs ys
  | _, _ => false

/-- Whether every member has the same value in `others`. -/
def sameMembers : List (Str × Value) → List (Str × Value) → Bool
  | [], _ => true
  | (key, x) :: rest, others =>
    (match lookup key others with
      | some y => same x y
      | none => false) && sameMembers rest others

end

/-! ## Items kept once -/

/-- The items kept so far and one more, unless one of them has its content. -/
def keepNew (kept : List Value) (x : Value) : List Value :=
  if kept.any (same · x) then kept else kept ++ [x]

/-- The items without those that have the same content as an earlier one. -/
def dedup (items : List Value) : List Value := items.foldl keepNew []

/-- No item has the same content as an earlier one. -/
def Distinct (items : List Value) : Prop :=
  items.Pairwise fun x y => same x y = false

theorem any_same_eq_false_iff {kept : List Value} {x : Value} :
    kept.any (same · x) = false ↔ ∀ y ∈ kept, same y x = false := by
  rw [List.any_eq_false]
  simp only [Bool.not_eq_true]

theorem distinct_append_singleton_iff {kept : List Value} {x : Value} :
    Distinct (kept ++ [x]) ↔ Distinct kept ∧ kept.any (same · x) = false := by
  rw [any_same_eq_false_iff, Distinct, Distinct, List.pairwise_append]
  simp

theorem distinct_keepNew {kept : List Value} (h : Distinct kept) (x : Value) :
    Distinct (keepNew kept x) := by
  rw [keepNew]
  split
  · exact h
  · rename_i hnew
    exact distinct_append_singleton_iff.2 ⟨h, by simpa using hnew⟩

theorem keepNew_sublist (kept : List Value) (x : Value) :
    (keepNew kept x).Sublist (kept ++ [x]) := by
  rw [keepNew]
  split
  · exact List.sublist_append_left kept [x]
  · exact List.Sublist.refl _

/-- Going on with more items keeps those that are kept distinct. -/
theorem distinct_foldl_keepNew (items : List Value) {kept : List Value} (h : Distinct kept) :
    Distinct (items.foldl keepNew kept) := by
  induction items generalizing kept with
  | nil => exact h
  | cons x rest ih => exact ih (distinct_keepNew h x)

theorem foldl_keepNew_sublist (items kept : List Value) :
    (items.foldl keepNew kept).Sublist (kept ++ items) := by
  induction items generalizing kept with
  | nil => simp
  | cons x rest ih =>
    have hstep := (keepNew_sublist kept x).append_right rest
    rw [List.append_assoc, List.singleton_append] at hstep
    exact (ih (keepNew kept x)).trans hstep

theorem foldl_keepNew_of_distinct (items : List Value) {kept : List Value}
    (h : Distinct (kept ++ items)) : items.foldl keepNew kept = kept ++ items := by
  induction items generalizing kept with
  | nil => simp
  | cons x rest ih =>
    rw [← List.singleton_append, ← List.append_assoc] at h ⊢
    have hnew : kept.any (same · x) = false :=
      (distinct_append_singleton_iff.1 (List.pairwise_append.1 h).1).2
    rw [List.singleton_append, List.foldl_cons, keepNew, hnew]
    exact ih h

theorem distinct_dedup (items : List Value) : Distinct (dedup items) :=
  distinct_foldl_keepNew items .nil

theorem dedup_sublist (items : List Value) : (dedup items).Sublist items :=
  foldl_keepNew_sublist items []

/-- Items of which no two have the same content are all kept. -/
theorem dedup_of_distinct {items : List Value} (h : Distinct items) : dedup items = items :=
  foldl_keepNew_of_distinct items h

/-! ## Truth -/

/-- Whether the value counts as absent: null, false, zero, or empty. -/
def isFalsy : Value → Bool
  | .null => true
  | .string s => s.points.isEmpty
  | .list items => items.isEmpty
  | .object members => members.isEmpty
  | v => match v.number? with
    | some n => n.same (.int 0)
    | none => false

end Value

end ContractAudit.Json

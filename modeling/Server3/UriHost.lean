import Mathlib.Data.List.TakeWhile
import Mathlib.Tactic.Common

/-! The hosts that a URI may name: a DNS name, an IPv4 address, or an IPv6 address in
brackets; and what of an authority is its port. -/

namespace UriHost

/-- The characters of names. Those of an IPv4 address are among them. -/
def nameChar (char : Char) : Bool :=
  char.isAlphanum || char = '-' || char = '.' || char = '_'

def hexDigit (char : Char) : Bool :=
  char.isDigit || ('a' ≤ char && char ≤ 'f') || ('A' ≤ char && char ≤ 'F')

structure HexGroup (text : List Char) : Prop where
  short : 1 ≤ text.length ∧ text.length ≤ 4
  digits : ∀ char ∈ text, hexDigit char = true

/-- A number below 256 without leading zeros. -/
structure Octet (text : List Char) : Prop where
  present : 1 ≤ text.length
  digits : ∀ char ∈ text, char.isDigit = true
  canonical : text.head? = some '0' → text.length = 1
  small : text.foldl (fun value char => 10 * value + (char.toNat - '0'.toNat)) 0 < 256

inductive Ipv4 : List Char → Prop where
  | octets (first second third fourth : List Char) (front : Octet first) (next : Octet second)
      (after : Octet third) (last : Octet fourth) :
      Ipv4 (first ++ '.' :: (second ++ '.' :: (third ++ '.' :: fourth)))

/-- A number of groups with colons between them. -/
inductive HexGroups : Nat → List Char → Prop where
  | one (group : List Char) (valid : HexGroup group) : HexGroups 1 group
  | more (group rest : List Char) (count : Nat) (valid : HexGroup group)
      (later : HexGroups count rest) : HexGroups (count + 1) (group ++ ':' :: rest)

/-- The groups at the end of an address, the last two of which may be an IPv4 address. -/
inductive LastGroups : Nat → List Char → Prop where
  | groups (text : List Char) (count : Nat) (valid : HexGroups count text) : LastGroups count text
  | address (text : List Char) (valid : Ipv4 text) : LastGroups 2 text
  | mixed (front text : List Char) (count : Nat) (before : HexGroups count front)
      (valid : Ipv4 text) : LastGroups (count + 2) (front ++ ':' :: text)

/-- Eight groups, or fewer and two colons in the place of the rest. -/
inductive Ipv6 : List Char → Prop where
  | full (text : List Char) (valid : LastGroups 8 text) : Ipv6 text
  | short (front back : List Char) (before after : Nat)
      (valid : HexGroups before front ∨ (before = 0 ∧ front = []))
      (valid' : LastGroups after back ∨ (after = 0 ∧ back = [])) (few : before + after ≤ 7) :
      Ipv6 (front ++ ':' :: ':' :: back)

inductive Host : List Char → Prop where
  | name (text : List Char) (present : text ≠ []) (valid : ∀ char ∈ text, nameChar char = true) :
      Host text
  | literal (address : List Char) (valid : Ipv6 address) : Host ('[' :: (address ++ [']']))

def addressChar (char : Char) : Prop := hexDigit char = true ∨ char = ':' ∨ char = '.'

theorem hex_of_digit {char : Char} (digit : char.isDigit = true) : hexDigit char = true := by
  simp [hexDigit, digit]

theorem ipv4_chars {text : List Char} (valid : Ipv4 text) : ∀ char ∈ text, addressChar char := by
  obtain ⟨first, second, third, fourth, one, two, three, four⟩ := valid
  have digit (octet : List Char) (valid : Octet octet) (char) (member : char ∈ octet) :
      addressChar char := Or.inl (hex_of_digit (valid.digits char member))
  intro char member
  simp only [List.mem_append, List.mem_cons] at member
  rcases member with member | rfl | member | rfl | member | rfl | member
  · exact digit first one char member
  · exact Or.inr (Or.inr rfl)
  · exact digit second two char member
  · exact Or.inr (Or.inr rfl)
  · exact digit third three char member
  · exact Or.inr (Or.inr rfl)
  · exact digit fourth four char member

theorem hex_groups_chars {count : Nat} {text : List Char} (valid : HexGroups count text) :
    ∀ char ∈ text, addressChar char := by
  induction valid with
  | one group valid => exact fun char member => Or.inl (valid.digits char member)
  | more group rest count valid later ih =>
      intro char member
      rcases List.mem_append.mp member with inside | behind
      · exact Or.inl (valid.digits char inside)
      · rcases List.mem_cons.mp behind with rfl | behind
        · exact Or.inr (Or.inl rfl)
        · exact ih char behind

theorem last_groups_chars {count : Nat} {text : List Char} (valid : LastGroups count text) :
    ∀ char ∈ text, addressChar char := by
  cases valid with
  | groups _ _ valid => exact hex_groups_chars valid
  | address _ valid => exact ipv4_chars valid
  | mixed front text count before valid =>
      intro char member
      rcases List.mem_append.mp member with inside | behind
      · exact hex_groups_chars before char inside
      · rcases List.mem_cons.mp behind with rfl | behind
        · exact Or.inr (Or.inl rfl)
        · exact ipv4_chars valid char behind

theorem ipv6_chars {text : List Char} (valid : Ipv6 text) : ∀ char ∈ text, addressChar char := by
  cases valid with
  | full _ valid => exact last_groups_chars valid
  | short front back before after valid valid' few =>
      intro char member
      simp only [List.mem_append, List.mem_cons] at member
      rcases member with member | rfl | rfl | member
      · rcases valid with valid | ⟨-, rfl⟩
        · exact hex_groups_chars valid char member
        · cases member
      · exact Or.inr (Or.inl rfl)
      · exact Or.inr (Or.inl rfl)
      · rcases valid' with valid' | ⟨-, rfl⟩
        · exact last_groups_chars valid' char member
        · cases member

theorem ipv6_colon {text : List Char} (valid : Ipv6 text) : ':' ∈ text := by
  cases valid with
  | full _ valid =>
      cases valid with
      | groups _ _ valid => cases valid with | more group rest count valid later => simp
      | mixed front text count before valid => simp
  | short front back before after valid valid' few => simp

theorem name_no_colon {text : List Char} (valid : ∀ char ∈ text, nameChar char = true) :
    ':' ∉ text := by
  intro colon
  exact absurd (valid ':' colon) (by decide)

def bracketed : List Char → Bool
  | '[' :: rest => rest.dropWhile (fun char => char ≠ ']') = [']']
  | _ => false

theorem bracketed_iff {text : List Char} :
    bracketed text = true ↔ ∃ inside, text = '[' :: (inside ++ [']']) ∧ ']' ∉ inside := by
  unfold bracketed
  split
  · rename_i rest
    simp only [decide_eq_true_eq, List.cons.injEq, true_and]
    constructor
    · intro closed
      refine ⟨rest.takeWhile fun char => char ≠ ']', ?_, ?_⟩
      · rw [← closed]
        exact List.takeWhile_append_dropWhile.symm
      · intro member
        simpa using List.mem_takeWhile_imp member
    · rintro ⟨inside, rfl, absent⟩
      rw [List.dropWhile_append_of_pos]
      · simp
      · intro char member
        simp only [ne_eq, decide_not, Bool.not_eq_true', decide_eq_false_iff_not]
        rintro rfl
        exact absent member
  · rename_i other
    simp only [Bool.false_eq_true, false_iff, not_exists, not_and]
    rintro inside rfl
    exact absurd rfl (other _)

end UriHost

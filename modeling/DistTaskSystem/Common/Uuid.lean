import Mathlib.Data.List.Basic
import Mathlib.Data.String.Basic

/-!
# DTS — UUIDs

Job ids and task ids are the canonical texts `boost::uuids::to_string` prints
(`uuid_generator.hpp`): lower-case hexadecimal digits in groups of 8, 4, 4, 4
and 12. `Uuid` carries the shape, so an id that reached the system through
`generate` is never empty and never malformed.

`uuidIn` is the input function of the PostgreSQL type `uuid`, which every
statement applies to the `std::string` it is handed. It is more liberal than
the canonical shape: upper-case digits, surrounding braces and missing or
additional hyphens are accepted and normalized.
-/

namespace DistTaskSystem

/-- A lower-case hexadecimal digit. -/
def hexDigit (c : Char) : Bool :=
  ('0' ≤ c && c ≤ '9') || ('a' ≤ c && c ≤ 'f')

/-- `isxdigit`. -/
def isXDigit (c : Char) : Bool :=
  hexDigit c || ('A' ≤ c && c ≤ 'F')

/-- Character-wise match against a pattern in which `x` stands for a digit. -/
def matchesShape : List Char → List Char → Bool
  | [], [] => true
  | p :: ps, c :: cs => (if p = 'x' then hexDigit c else c == p) && matchesShape ps cs
  | _, _ => false

/-- The canonical text of a UUID. -/
def isUuid (text : String) : Bool :=
  matchesShape "xxxxxxxx-xxxx-xxxx-xxxx-xxxxxxxxxxxx".toList text.toList

/-- An id produced by `dts::common::generate`. -/
structure Uuid where
  text : String
  canonical : isUuid text = true
deriving DecidableEq

theorem Uuid.text_inj {u v : Uuid} : u.text = v.text ↔ u = v :=
  ⟨fun h => by cases u; cases v; simpa using h, fun h => by rw [h]⟩

theorem Uuid.text_ne_empty (u : Uuid) : u.text ≠ "" := by
  intro h
  have hc := u.canonical
  rw [h] at hc
  exact absurd hc (by decide)

/-- The digits of a UUID text, in lower case: `n` byte pairs are still due. A
hyphen may follow every second pair except the last. -/
def uuidDigits (braces : Bool) : Nat → List Char → Option (List Char)
  | 0, rest => if rest = (if braces then ['\x7d'] else []) then some [] else none
  | n + 1, a :: b :: rest =>
    if isXDigit a && isXDigit b then
      (uuidDigits braces n
        (if n % 2 = 0 ∧ 0 < n ∧ rest.head? = some '-' then rest.tail else rest)).map
        fun ds => a.toLower :: b.toLower :: ds
    else none
  | _ + 1, _ => none

/-- The canonical text of 32 digits. -/
def formatUuid (ds : List Char) : String :=
  String.ofList (ds.take 8 ++ '-' :: (ds.drop 8).take 4 ++ '-' :: (ds.drop 12).take 4 ++
    '-' :: (ds.drop 16).take 4 ++ '-' :: ds.drop 20)

/-- The digits of a text, which may stand between braces. -/
def readUuid : List Char → Option (List Char)
  | '\x7b' :: cs => uuidDigits true 16 cs
  | cs => uuidDigits false 16 cs

/-- `uuid_in`: the value a text denotes, if it denotes one. -/
def uuidIn (text : String) : Option Uuid :=
  match readUuid text.toList with
  | none => none
  | some ds => if h : isUuid (formatUuid ds) = true then some ⟨formatUuid ds, h⟩ else none

example : (uuidIn "\x7bA0EEBC99-9C0B4EF8-BB6D6BB9BD380A11\x7d").map Uuid.text =
    some "a0eebc99-9c0b-4ef8-bb6d-6bb9bd380a11" := by decide +kernel

/-! ## Canonical texts denote themselves -/

section Digits

variable {c : Char}

theorem isXDigit_of_hexDigit (h : hexDigit c = true) : isXDigit c = true := by
  unfold isXDigit
  rw [h, Bool.true_or]

theorem toLower_of_hexDigit (h : hexDigit c = true) : c.toLower = c := by
  unfold Char.toLower
  refine dif_neg fun hupper => ?_
  have hlow : 'A' ≤ c := Char.le_def.mpr hupper.1
  have hhigh : c ≤ 'Z' := Char.le_def.mpr hupper.2
  unfold hexDigit at h
  simp only [Bool.or_eq_true, Bool.and_eq_true, decide_eq_true_eq] at h
  rcases h with ⟨-, hnine⟩ | ⟨ha, -⟩
  · exact absurd (hlow.trans hnine) (by decide)
  · exact absurd (ha.trans hhigh) (by decide)

theorem ne_of_hexDigit {d : Char} (h : hexDigit c = true) (hd : hexDigit d = false) : c ≠ d := by
  rintro rfl
  rw [h] at hd
  exact Bool.noConfusion hd

end Digits

/-- A group of `k` digits, and what follows it. -/
theorem matchesShape_digits (k : ℕ) {ps cs : List Char}
    (h : matchesShape (List.replicate k 'x' ++ ps) cs = true) :
    ∃ ds rest, cs = ds ++ rest ∧ ds.length = k ∧ (∀ d ∈ ds, hexDigit d = true) ∧
      matchesShape ps rest = true := by
  induction k generalizing cs with
  | zero => exact ⟨[], cs, rfl, rfl, by simp, h⟩
  | succ k ih =>
    cases cs with
    | nil => simp [List.replicate_succ, matchesShape] at h
    | cons c cs =>
      rw [List.replicate_succ, List.cons_append, matchesShape, if_pos rfl, Bool.and_eq_true] at h
      obtain ⟨ds, rest, rfl, hlen, hds, hrest⟩ := ih h.2
      exact ⟨c :: ds, rest, rfl, by rw [List.length_cons, hlen],
        List.forall_mem_cons.mpr ⟨h.1, hds⟩, hrest⟩

theorem matchesShape_hyphen {ps cs : List Char} (h : matchesShape ('-' :: ps) cs = true) :
    ∃ rest, cs = '-' :: rest ∧ matchesShape ps rest = true := by
  cases cs with
  | nil => simp [matchesShape] at h
  | cons c cs =>
    rw [matchesShape, if_neg (by decide), Bool.and_eq_true, beq_iff_eq] at h
    exact ⟨cs, by rw [h.1], h.2⟩

/-- What `uuidDigits` has left to read once `n` pairs are still due. -/
def afterPair (n : ℕ) (rest : List Char) : List Char :=
  if n % 2 = 0 ∧ 0 < n ∧ rest.head? = some '-' then rest.tail else rest

/-- A group of `k + 1` pairs of digits is read up to its end. -/
theorem uuidDigits_group (k n : ℕ) {ds rest : List Char} (hlen : ds.length = 2 * (k + 1))
    (hds : ∀ d ∈ ds, hexDigit d = true) :
    uuidDigits false (k + 1 + n) (ds ++ rest) =
      (uuidDigits false n (afterPair n rest)).map (ds ++ ·) := by
  induction k generalizing ds with
  | zero =>
    obtain ⟨a, b, rfl⟩ := List.length_eq_two.mp hlen
    have ha := hds a (by simp)
    have hb := hds b (by simp)
    rw [show 0 + 1 + n = n + 1 by omega]
    simp only [List.cons_append, List.nil_append, uuidDigits, isXDigit_of_hexDigit ha,
      isXDigit_of_hexDigit hb, toLower_of_hexDigit ha, toLower_of_hexDigit hb, Bool.and_self,
      if_true, afterPair]
  | succ k ih =>
    match ds, hlen with
    | a :: b :: ds, hlen =>
      have ha := hds a (by simp)
      have hb := hds b (by simp)
      have hds' : ∀ d ∈ ds, hexDigit d = true := fun d hd => hds d (by simp [hd])
      simp only [List.length_cons] at hlen
      -- a digit follows, so no hyphen is skipped here
      have hhead : (ds ++ rest).head? ≠ some '-' := by
        cases ds with
        | nil =>
          rw [List.length_nil] at hlen
          omega
        | cons c ds =>
          intro heq
          exact ne_of_hexDigit (hds' c (by simp)) (by decide) (Option.some.inj heq)
      rw [show k + 1 + 1 + n = (k + 1 + n) + 1 by omega]
      simp only [List.cons_append, uuidDigits, isXDigit_of_hexDigit ha, isXDigit_of_hexDigit hb,
        toLower_of_hexDigit ha, toLower_of_hexDigit hb, Bool.and_self, if_true]
      rw [if_neg fun hskip => hhead hskip.2.2, ih (by omega) hds', Option.map_map]
      rfl

/-- The five groups of a canonical text. -/
theorem Uuid.groups (u : Uuid) : ∃ g₁ g₂ g₃ g₄ g₅ : List Char,
    u.text.toList = g₁ ++ '-' :: (g₂ ++ '-' :: (g₃ ++ '-' :: (g₄ ++ '-' :: g₅))) ∧
    (g₁.length = 8 ∧ g₂.length = 4 ∧ g₃.length = 4 ∧ g₄.length = 4 ∧ g₅.length = 12) ∧
    (∀ d ∈ g₁, hexDigit d = true) ∧ (∀ d ∈ g₂, hexDigit d = true) ∧
    (∀ d ∈ g₃, hexDigit d = true) ∧ (∀ d ∈ g₄, hexDigit d = true) ∧
    (∀ d ∈ g₅, hexDigit d = true) := by
  have h := u.canonical
  unfold isUuid at h
  rw [show "xxxxxxxx-xxxx-xxxx-xxxx-xxxxxxxxxxxx".toList = List.replicate 8 'x' ++
    '-' :: (List.replicate 4 'x' ++ '-' :: (List.replicate 4 'x' ++ '-' ::
      (List.replicate 4 'x' ++ '-' :: (List.replicate 12 'x' ++ [])))) by decide] at h
  obtain ⟨g₁, r₁, h₁, hl₁, hd₁, h⟩ := matchesShape_digits 8 h
  obtain ⟨r₁, rfl, h⟩ := matchesShape_hyphen h
  obtain ⟨g₂, r₂, rfl, hl₂, hd₂, h⟩ := matchesShape_digits 4 h
  obtain ⟨r₂, rfl, h⟩ := matchesShape_hyphen h
  obtain ⟨g₃, r₃, rfl, hl₃, hd₃, h⟩ := matchesShape_digits 4 h
  obtain ⟨r₃, rfl, h⟩ := matchesShape_hyphen h
  obtain ⟨g₄, r₄, rfl, hl₄, hd₄, h⟩ := matchesShape_digits 4 h
  obtain ⟨r₄, rfl, h⟩ := matchesShape_hyphen h
  obtain ⟨g₅, r₅, rfl, hl₅, hd₅, h⟩ := matchesShape_digits 12 h
  obtain rfl : r₅ = [] := by
    cases r₅ with
    | nil => rfl
    | cons c cs => simp [matchesShape] at h
  rw [List.append_nil] at h₁
  exact ⟨g₁, g₂, g₃, g₄, g₅, h₁, ⟨hl₁, hl₂, hl₃, hl₄, hl₅⟩, hd₁, hd₂, hd₃, hd₄, hd₅⟩

/-- **A canonical text denotes its id.** -/
@[simp] theorem uuidIn_text (u : Uuid) : uuidIn u.text = some u := by
  obtain ⟨g₁, g₂, g₃, g₄, g₅, htext, ⟨hl₁, hl₂, hl₃, hl₄, hl₅⟩, hd₁, hd₂, hd₃, hd₄, hd₅⟩ :=
    u.groups
  have hdigits : uuidDigits false 16 u.text.toList = some (g₁ ++ (g₂ ++ (g₃ ++ (g₄ ++ g₅)))) := by
    rw [htext, uuidDigits_group 3 12 hl₁ hd₁]
    simp only [afterPair, List.head?_cons, List.tail_cons]
    rw [if_pos (by decide), uuidDigits_group 1 10 hl₂ hd₂]
    simp only [afterPair, List.head?_cons, List.tail_cons]
    rw [if_pos (by decide), uuidDigits_group 1 8 hl₃ hd₃]
    simp only [afterPair, List.head?_cons, List.tail_cons]
    rw [if_pos (by decide), uuidDigits_group 1 6 hl₄ hd₄]
    simp only [afterPair, List.head?_cons, List.tail_cons]
    rw [if_pos (by decide), ← List.append_nil g₅, uuidDigits_group 5 0 hl₅ hd₅]
    simp [afterPair, uuidDigits]
  have hformat : formatUuid (g₁ ++ (g₂ ++ (g₃ ++ (g₄ ++ g₅)))) = u.text := by
    unfold formatUuid
    rw [← String.toList_inj, String.toList_ofList, htext]
    have h8 : ∀ l, (g₁ ++ l).drop 8 = l := fun l => List.drop_left' hl₁
    have h12 : ∀ l, (g₁ ++ (g₂ ++ l)).drop 12 = l := fun l => by
      rw [← List.append_assoc]
      exact List.drop_left' (by rw [List.length_append, hl₁, hl₂])
    have h16 : ∀ l, (g₁ ++ (g₂ ++ (g₃ ++ l))).drop 16 = l := fun l => by
      rw [← List.append_assoc, ← List.append_assoc]
      exact List.drop_left' (by simp only [List.length_append, hl₁, hl₂, hl₃])
    have h20 : ∀ l, (g₁ ++ (g₂ ++ (g₃ ++ (g₄ ++ l)))).drop 20 = l := fun l => by
      rw [← List.append_assoc, ← List.append_assoc, ← List.append_assoc]
      exact List.drop_left' (by simp only [List.length_append, hl₁, hl₂, hl₃, hl₄])
    rw [List.take_left' hl₁, h8, h12, h16, h20, List.take_left' hl₂, List.take_left' hl₃,
      List.take_left' hl₄]
    simp
  -- a canonical text starts with a digit, not with a brace
  have hread : readUuid u.text.toList = uuidDigits false 16 u.text.toList := by
    unfold readUuid
    split
    · next cs heq =>
      exfalso
      rw [htext] at heq
      cases g₁ with
      | nil => simp at hl₁
      | cons c g₁ =>
        exact ne_of_hexDigit (hd₁ c (by simp)) (by decide) (List.cons.inj heq).1
    · rfl
  unfold uuidIn
  rw [hread, hdigits]
  have hcanonical : isUuid (formatUuid (g₁ ++ (g₂ ++ (g₃ ++ (g₄ ++ g₅))))) = true := by
    rw [hformat]
    exact u.canonical
  dsimp only
  rw [dif_pos hcanonical]
  exact congrArg some (Uuid.text_inj.mp hformat)

/-- It holds no NUL. -/
theorem Uuid.nul_notMem (u : Uuid) : '\x00' ∉ u.text.toList := by
  obtain ⟨g₁, g₂, g₃, g₄, g₅, htext, -, hd₁, hd₂, hd₃, hd₄, hd₅⟩ := u.groups
  rw [htext]
  intro hmem
  have hdigit : ∀ g : List Char, (∀ d ∈ g, hexDigit d = true) → '\x00' ∉ g := fun g hg hnul =>
    absurd (hg _ hnul) (by decide)
  simp [hdigit _ hd₁, hdigit _ hd₂, hdigit _ hd₃, hdigit _ hd₄, hdigit _ hd₅] at hmem

end DistTaskSystem

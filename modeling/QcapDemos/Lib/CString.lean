import Mathlib.Data.List.Infix
import Mathlib.Data.UInt

set_option autoImplicit false

/-! # C strings

The comparisons of C read a string up to its NUL, or as far as they need to. A pointer into an array
is the list of the bytes from there to the end of the array, and a read beyond the array has no
result. A comparison is then determined by a field that a NUL ends, and by a field without a NUL
only where it is settled before the field ends.
-/

namespace QcapDemos.Lib.CString

/-- The bytes of a literal, without the NUL. -/
def ascii (s : String) : List UInt8 := s.toList.map fun c => c.toNat.toUInt8

/-- `strcmp(s, lit) == 0`. -/
def strEq : List UInt8 → List UInt8 → Option Bool
  | [], _ => none
  | b :: _, [] => some (b == 0)
  | b :: s, c :: lit => if b = c then strEq s lit else some false

/-- `strncmp(s, lit, strlen(lit)) == 0`. -/
def strPrefix : List UInt8 → List UInt8 → Option Bool
  | _, [] => some true
  | [], _ :: _ => none
  | b :: s, c :: lit => if b = c then strPrefix s lit else some false

/-- `strstr(s, lit) != nullptr`, for a literal that is not empty. -/
def strContains (lit : List UInt8) : List UInt8 → Option Bool
  | [] => none
  | b :: s =>
      if b = 0 then some false
      else do
        if ← strPrefix (b :: s) lit then pure true else strContains lit s

/-- `strnlen(s, left)`. -/
def strnlen (s : List UInt8) (left : Nat) : Nat := ((s.take left).takeWhile (· != 0)).length

/-- An induction on the fields: those that a NUL ends, and the last one. -/
theorem fields_induction {P : List UInt8 → Prop} (last : ∀ f, 0 ∉ f → P f)
    (more : ∀ f l, 0 ∉ f → P l → P (f ++ 0 :: l)) (s : List UInt8) : P s := by
  induction hlen : s.length using Nat.strong_induction_on generalizing s with
  | _ n ih =>
      by_cases hs : 0 ∈ s
      · obtain ⟨f, l, rfl, hf⟩ := List.eq_append_cons_of_mem hs
        rw [List.length_append, List.length_cons] at hlen
        exact more f l hf (ih l.length (by omega) l rfl)
      · exact last s hs

section Fields

variable {f lit : List UInt8}

/-! ## A field that a NUL ends -/

theorem all_ne_nul (hf : 0 ∉ f) : ∀ b ∈ f, (b != 0) = true := by
  intro b hb
  have hne : b ≠ 0 := fun h => hf (h ▸ hb)
  simpa using hne

theorem strnlen_of_not_mem (hf : 0 ∉ f) (rest : List UInt8) :
    strnlen (f ++ rest) f.length = f.length := by
  have hall := all_ne_nul hf
  rw [strnlen, List.take_left]
  conv_lhs => rw [← List.append_nil f, List.takeWhile_append_of_pos hall]
  rw [List.takeWhile_nil, List.append_nil]

theorem strnlen_of_nul (hf : 0 ∉ f) (rest : List UInt8) {left : Nat} (h : f.length < left) :
    strnlen (f ++ 0 :: rest) left = f.length := by
  -- the NUL is among the bytes that are left, and ends the field
  obtain ⟨n, rfl⟩ : ∃ n, left = f.length + (n + 1) := ⟨left - f.length - 1, by omega⟩
  rw [strnlen, List.take_length_add_append, List.take_succ_cons,
    List.takeWhile_append_of_pos (all_ne_nul hf), List.takeWhile_cons_of_neg (by simp),
    List.append_nil]

theorem strEq_nul (hf : 0 ∉ f) (hlit : 0 ∉ lit) (rest : List UInt8) :
    strEq (f ++ 0 :: rest) lit = some (decide (f = lit)) := by
  induction f generalizing lit with
  | nil =>
      cases lit with
      | nil => rfl
      | cons c lit =>
          have hc : ¬ (0 : UInt8) = c := fun h => hlit (h ▸ List.mem_cons_self)
          simp [strEq, hc]
  | cons b f ih =>
      have hb : ¬ b = 0 := fun h => hf (h ▸ List.mem_cons_self)
      cases lit with
      | nil => simp [strEq, hb]
      | cons c lit =>
          have hrest := ih (fun h => hf (List.mem_cons_of_mem b h))
            (fun h => hlit (List.mem_cons_of_mem c h))
          by_cases hbc : b = c
          · simp [strEq, hbc, hrest]
          · simp [strEq, hbc]

theorem strPrefix_nul (hlit : 0 ∉ lit) (rest : List UInt8) :
    strPrefix (f ++ 0 :: rest) lit = some (decide (lit <+: f)) := by
  induction f generalizing lit with
  | nil =>
      cases lit with
      | nil => rfl
      | cons c lit =>
          have hc : ¬ (0 : UInt8) = c := fun h => hlit (h ▸ List.mem_cons_self)
          simp [strPrefix, hc]
  | cons b f ih =>
      cases lit with
      | nil => simp [strPrefix]
      | cons c lit =>
          have hrest := ih (fun h => hlit (List.mem_cons_of_mem c h))
          by_cases hbc : b = c
          · simp [strPrefix, hbc, hrest, List.cons_prefix_cons]
          · have hcb : ¬ c = b := fun h => hbc h.symm
            simp [strPrefix, hbc, hcb, List.cons_prefix_cons]

theorem strContains_nul (hf : 0 ∉ f) (hlit : 0 ∉ lit) (hne : lit ≠ []) (rest : List UInt8) :
    strContains lit (f ++ 0 :: rest) = some (decide (lit <:+: f)) := by
  induction f with
  | nil => simp [strContains, hne]
  | cons b f ih =>
      have hb : ¬ b = 0 := fun h => hf (h ▸ List.mem_cons_self)
      have hrest := ih fun h => hf (List.mem_cons_of_mem b h)
      have hhere : strPrefix (b :: (f ++ 0 :: rest)) lit = some (decide (lit <+: b :: f)) :=
        strPrefix_nul (f := b :: f) hlit rest
      rw [List.cons_append, strContains, if_neg hb, hhere, hrest]
      simp only [Option.bind_eq_bind, Option.bind_some, decide_eq_true_eq, List.infix_cons_iff]
      by_cases hpre : lit <+: b :: f
      · simp [hpre]
      · simp [hpre]

/-! ## A field that goes on -/

theorem strEq_settled (hf : 0 ∉ f) (h : ¬ f <+: lit) (rest : List UInt8) :
    strEq (f ++ rest) lit = some false := by
  induction f generalizing lit with
  | nil => exact absurd List.nil_prefix h
  | cons b f ih =>
      cases lit with
      | nil =>
          have hb : ¬ b = 0 := fun h => hf (h ▸ List.mem_cons_self)
          simp [strEq, hb]
      | cons c lit =>
          by_cases hbc : b = c
          · have hnot : ¬ f <+: lit := fun hpre => h (List.cons_prefix_cons.mpr ⟨hbc, hpre⟩)
            have hrest := ih (fun h => hf (List.mem_cons_of_mem b h)) hnot
            simp [strEq, hbc, hrest]
          · simp [strEq, hbc]

theorem strEq_unsettled (h : f <+: lit) : strEq f lit = none := by
  induction f generalizing lit with
  | nil => rfl
  | cons b f ih =>
      cases lit with
      | nil => exact absurd h.length_le (by simp)
      | cons c lit =>
          obtain ⟨hbc, hpre⟩ := List.cons_prefix_cons.mp h
          rw [strEq, if_pos hbc]
          exact ih hpre

theorem strPrefix_settled (h : ¬ f <+: lit ∨ f = lit) (rest : List UInt8) :
    strPrefix (f ++ rest) lit = some (decide (lit <+: f)) := by
  induction f generalizing lit with
  | nil =>
      rcases h with h | rfl
      · exact absurd List.nil_prefix h
      · simp [strPrefix]
  | cons b f ih =>
      cases lit with
      | nil => simp [strPrefix]
      | cons c lit =>
          by_cases hbc : b = c
          · have hrest : strPrefix (f ++ rest) lit = some (decide (lit <+: f)) := by
              refine ih (h.imp ?_ ?_)
              · exact fun hnot hpre => hnot (List.cons_prefix_cons.mpr ⟨hbc, hpre⟩)
              · exact fun heq => (List.cons.inj heq).2
            simp [strPrefix, hbc, hrest, List.cons_prefix_cons]
          · have hcb : ¬ c = b := fun h => hbc h.symm
            simp [strPrefix, hbc, hcb, List.cons_prefix_cons]

theorem strPrefix_of_prefix {s : List UInt8} (h : lit <+: s) : strPrefix s lit = some true := by
  induction lit generalizing s with
  | nil => simp [strPrefix]
  | cons c lit ih =>
      obtain ⟨rest, rfl⟩ := h
      rw [List.cons_append, strPrefix, if_pos rfl]
      exact ih (List.prefix_append lit rest)

theorem strPrefix_unsettled (h : f <+: lit) (hne : f ≠ lit) : strPrefix f lit = none := by
  induction f generalizing lit with
  | nil =>
      cases lit with
      | nil => exact absurd rfl hne
      | cons c lit => rfl
  | cons b f ih =>
      cases lit with
      | nil => exact absurd h.length_le (by simp)
      | cons c lit =>
          obtain ⟨hbc, hpre⟩ := List.cons_prefix_cons.mp h
          rw [strPrefix, if_pos hbc]
          exact ih hpre fun heq => hne (by rw [hbc, heq])

theorem strContains_settled (hf : 0 ∉ f) (h : lit <:+: f) (hne : lit ≠ []) (rest : List UInt8) :
    strContains lit (f ++ rest) = some true := by
  induction f with
  | nil => exact absurd (List.eq_nil_of_infix_nil h) hne
  | cons b f ih =>
      have hb : ¬ b = 0 := fun h => hf (h ▸ List.mem_cons_self)
      by_cases hpre : lit <+: b :: f
      · have hhere : strPrefix (b :: (f ++ rest)) lit = some true :=
          strPrefix_of_prefix (hpre.trans (List.prefix_append (b :: f) rest))
        rw [List.cons_append, strContains, if_neg hb, hhere]
        rfl
      · -- the occurrence begins later, and the comparison here fails within the field
        have hlater : lit <:+: f := (List.infix_cons_iff.mp h).resolve_left hpre
        have hlong : ¬ b :: f <+: lit := by
          intro hle
          have h1 := hle.length_le
          have h2 := hlater.length_le
          rw [List.length_cons] at h1
          omega
        have hhere : strPrefix (b :: (f ++ rest)) lit = some false := by
          have hsettled := strPrefix_settled (.inl hlong) rest
          rw [decide_eq_false hpre] at hsettled
          exact hsettled
        rw [List.cons_append, strContains, if_neg hb, hhere]
        exact ih (fun h => hf (List.mem_cons_of_mem b h)) hlater

theorem strContains_unsettled (hf : 0 ∉ f) (h : ¬ lit <:+: f) : strContains lit f = none := by
  induction f with
  | nil => rfl
  | cons b f ih =>
      have hb : ¬ b = 0 := fun h => hf (h ▸ List.mem_cons_self)
      rw [List.infix_cons_iff, not_or] at h
      rw [strContains, if_neg hb]
      -- the comparison here runs beyond the field, or fails and the search goes on
      by_cases hpre : b :: f <+: lit
      · rw [strPrefix_unsettled hpre fun heq => h.1 (heq ▸ List.prefix_rfl)]
        rfl
      · have hhere := strPrefix_settled (.inl hpre) []
        rw [List.append_nil, decide_eq_false h.1] at hhere
        rw [hhere]
        exact ih (fun h => hf (List.mem_cons_of_mem b h)) h.2

end Fields

end QcapDemos.Lib.CString

import QcapDemos.Fixture.AnnexB
import QcapDemos.Tx.Venc

set_option autoImplicit false

/-! # The TX video encoder: the bounds of the NAL scan

The scan of `OnVenc` by index, where every read and every copied range can fail. The loop over
`pos` wants four bytes, which is one byte too few behind a long start code: the scan reads beyond
the packet exactly where it comes to `00 00 00 01` at the very end. Whether it comes there depends
on the start codes before, since the byte after a recognised one is passed over.
-/

namespace QcapDemos.Tx

open QcapDemos.Lib QcapDemos.Lib.AnnexB QcapDemos.Fixture

/-! ## The loops -/

/-- `data[i] == w₀ && data[i + 1] == w₁ && …`, read as far as the comparisons need it. -/
def reads (data : List UInt8) (i : Nat) : List UInt8 → Option Bool
  | [] => some true
  | w :: ws => do
      if (← data[i]?) = w then reads data (i + 1) ws else pure false

/-- The `prefix` at `pos`. -/
def prefixAt (data : List UInt8) (pos : Nat) : Option Nat := do
  if ← reads data pos [0, 0, 1] then pure 3
  else if pos + 4 ≤ data.length then
    if ← reads data pos [0, 0, 0, 1] then pure 4 else pure 0
  else pure 0

/-- The `while` loop over `end`. The start code is compared as in `scan_annexb`. -/
def nalEndAt (data : List UInt8) (stop : Nat) : Option Nat :=
  if stop + 3 < data.length then
    match startCodeAt data stop with
    | none => none
    | some 0 => nalEndAt data (stop + 1)
    | some (_ + 1) => some stop
  else some stop
termination_by data.length - stop

/-- The range from `nal` to `stop`, which must lie within the data. -/
def copyRange (data : List UInt8) (nal stop : Nat) : Option (List UInt8) :=
  if nal ≤ stop ∧ stop ≤ data.length then some (slice data (nal, stop)) else none

/-- What the loop over `pos` does with the unit from `nal` to `stop`. -/
def addNal (data : List UInt8) (nal stop : Nat) (acc : Scan) : Option Scan := do
  -- nothing has tested that `nal` is below the length
  let type := (← data[nal]?) &&& 0x1f
  if type = SPS ∨ type = PPS then
    let acc := if type = SPS then { acc with hasSps := true } else { acc with hasPps := true }
    let bytes ← copyRange data nal stop
    pure { acc with parameterSets := acc.parameterSets ++ [0, 0, 0, 1] ++ bytes }
  else if type = IDR then pure { acc with hasIdr := true }
  else pure acc

theorem le_nalEndAt {data : List UInt8} {stop stop' : Nat} (h : nalEndAt data stop = some stop') :
    stop ≤ stop' := by
  fun_induction nalEndAt data stop with
  | case1 => cases h
  | case2 stop hlt hcode ih =>
      have hle := ih h
      omega
  | case3 => exact (Option.some.inj h).le
  | case4 => exact (Option.some.inj h).le

/-- The loop over `pos`. -/
def nalScan (data : List UInt8) (pos : Nat) (acc : Scan) : Option Scan :=
  if pos + 4 ≤ data.length then
    match prefixAt data pos with
    | none => none
    | some 0 => nalScan data (pos + 1) acc
    | some (n + 1) =>
        let nal := pos + (n + 1)
        match _h : nalEndAt data (nal + 1) with
        | none => none
        | some stop => (addNal data nal stop acc).bind (nalScan data stop)
  else some acc
termination_by data.length - pos
decreasing_by
  · omega
  · have hle := le_nalEndAt _h
    omega

/-! ## Packets that end in a start code -/

/-- How many `00 00 01` follow each other directly, read backwards from the end. -/
def codeRun : List UInt8 → Nat
  | 1 :: 0 :: 0 :: rest => codeRun rest + 1
  | _ => 0

/-- The end of a packet, read backwards: `00 00 00 01` with an even number of `00 00 01` directly
before it. -/
def bareEnd : List UInt8 → Bool
  | 1 :: 0 :: 0 :: 0 :: rest => codeRun rest % 2 == 0
  | _ => false

/-- The packet ends in `00 00 00 01`, and directly before that in an even number of `00 00 01`
that follow each other. -/
def EndsBare (data : List UInt8) : Prop := bareEnd data.reverse = true

instance (data : List UInt8) : Decidable (EndsBare data) :=
  inferInstanceAs (Decidable (bareEnd data.reverse = true))

section EndsBare

variable {data : List UInt8}

theorem codeRun_eq_zero {l : List UInt8} (h : ∀ rest, l ≠ 1 :: 0 :: 0 :: rest) : codeRun l = 0 := by
  unfold codeRun
  split
  · exact absurd rfl (h _)
  · rfl

/-- Bytes further ahead do not change whether the number is odd, unless they complete a code. -/
theorem codeRun_append {w q : List UInt8}
    (h : ∀ r, r <:+ q → (∀ rest, r ≠ 1 :: 0 :: 0 :: rest) → codeRun (r ++ w) % 2 = 0) :
    codeRun (q ++ w) % 2 = codeRun q % 2 := by
  induction q using codeRun.induct with
  | case1 rest ih =>
      have hrest := ih fun r hr => h r (hr.trans ⟨[1, 0, 0], rfl⟩)
      simp only [List.cons_append, codeRun]
      omega
  | case2 q hq =>
      rw [codeRun_eq_zero fun rest heq => hq rest heq]
      exact h q List.suffix_rfl fun rest heq => hq rest heq

theorem bareEnd_eq_false {l : List UInt8} (h : ∀ rest, l ≠ 1 :: 0 :: 0 :: 0 :: rest) :
    bareEnd l = false := by
  unfold bareEnd
  split
  · exact absurd rfl (h _)
  · rfl

theorem bareEnd_append {w q : List UInt8}
    (h : ∀ r, r <:+ q → (∀ rest, r ≠ 1 :: 0 :: 0 :: rest) → codeRun (r ++ w) % 2 = 0)
    (hshort : q.length < 4 → bareEnd (q ++ w) = false) : bareEnd (q ++ w) = bareEnd q := by
  by_cases hq : ∃ rest, q = 1 :: 0 :: 0 :: 0 :: rest
  · obtain ⟨rest, rfl⟩ := hq
    have hrun := codeRun_append fun r hr => h r (hr.trans ⟨[1, 0, 0, 0], rfl⟩)
    simp only [List.cons_append, bareEnd, hrun]
  · have hfalse : bareEnd q = false := bareEnd_eq_false fun rest heq => hq ⟨rest, heq⟩
    rw [hfalse]
    by_cases hlen : q.length < 4
    · exact hshort hlen
    · refine bareEnd_eq_false fun rest heq => hq ?_
      -- the four bytes at the end are all in `q`
      match q, hlen with
      | a :: b :: c :: d :: q, _ =>
          simp only [List.cons_append, List.cons.injEq] at heq
          obtain ⟨rfl, rfl, rfl, rfl, -⟩ := heq
          exact ⟨q, rfl⟩

theorem not_endsBare_of_length_lt (h : data.length < 4) : ¬ EndsBare data := by
  have hlen : data.reverse.length < 4 := by rwa [List.length_reverse]
  rw [EndsBare, bareEnd_eq_false]
  · simp
  · rintro rest heq
    rw [heq] at hlen
    simp only [List.length_cons] at hlen
    omega

/-- A recognised code and the byte after it make no difference to what follows. -/
theorem codeRun_append_code {h : UInt8} {zeros : List UInt8} (hzeros : zeros = [] ∨ zeros = [0])
    {r : List UInt8} (hr : ∀ rest, r ≠ 1 :: 0 :: 0 :: rest) :
    codeRun (r ++ (h :: 1 :: 0 :: 0 :: zeros)) % 2 = 0 := by
  have hzero : codeRun zeros = 0 := by
    rcases hzeros with rfl | rfl <;> rfl
  match r, hr with
  | [], _ => rw [codeRun_eq_zero (by simp)]
  | [a], _ => rw [codeRun_eq_zero (by simp)]
  | [a, b], _ =>
      by_cases hab : a = 1 ∧ b = 0 ∧ h = 0
      · obtain ⟨rfl, rfl, rfl⟩ := hab
        -- both the code and the one that the byte completes count
        simp only [List.cons_append, List.nil_append, codeRun, hzero]
      · rw [codeRun_eq_zero]
        intro rest heq
        simp only [List.cons_append, List.nil_append, List.cons.injEq] at heq
        exact hab ⟨heq.1, heq.2.1, heq.2.2.1⟩
  | a :: b :: c :: r, hr =>
      rw [codeRun_eq_zero]
      intro rest heq
      simp only [List.cons_append, List.cons.injEq] at heq
      obtain ⟨rfl, rfl, rfl, -⟩ := heq
      exact hr r rfl

theorem bareEnd_append_code {h : UInt8} {zeros : List UInt8} (hzeros : zeros = [] ∨ zeros = [0])
    (q : List UInt8) : bareEnd (q ++ (h :: 1 :: 0 :: 0 :: zeros)) = bareEnd q := by
  refine bareEnd_append (fun r _ hr => codeRun_append_code hzeros hr) fun hlen => ?_
  match q, hlen with
  | [], _ => exact bareEnd_eq_false (by simp)
  | [a], _ => exact bareEnd_eq_false (by simp)
  | [a, b], _ => exact bareEnd_eq_false (by simp)
  | [a, b, c], _ =>
      by_cases hrun : a = 1 ∧ b = 0 ∧ c = 0 ∧ h = 0
      · obtain ⟨rfl, rfl, rfl, rfl⟩ := hrun
        rcases hzeros with rfl | rfl <;> rfl
      · refine bareEnd_eq_false fun rest heq => hrun ?_
        simp only [List.cons_append, List.nil_append, List.cons.injEq] at heq
        exact ⟨heq.1, heq.2.1, heq.2.2.1, heq.2.2.2.1⟩

/-- A packet of at least four bytes that is a start code only. -/
theorem endsBare_of_code {n : Nat} (hcode : startPrefix data = n + 1) (hend : data.length ≤ n + 1)
    (hlen : 4 ≤ data.length) : EndsBare data := by
  obtain ⟨long, rest, rfl, hn⟩ := startCode_of_startPrefix hcode
  rw [List.length_append] at hend hlen
  obtain rfl : rest = [] := List.eq_nil_of_length_eq_zero (by omega)
  cases long with
  | false => exact absurd hlen (by decide)
  | true => decide

/-- A start code that is recognised, with the byte after it, leaves the end as it is. -/
theorem endsBare_code {n : Nat} {head : UInt8} {rest : List UInt8}
    (hcode : startPrefix data = n + 1) (hdrop : data.drop (n + 1) = head :: rest) :
    EndsBare data ↔ EndsBare rest := by
  obtain ⟨long, rest', rfl, hn⟩ := startCode_of_startPrefix hcode
  rw [← hn, List.drop_left] at hdrop
  subst hdrop
  cases long with
  | false =>
      have hrev : (startCode false ++ head :: rest).reverse = rest.reverse ++ [head, 1, 0, 0] := by
        simp [startCode]
      rw [EndsBare, EndsBare, hrev, bareEnd_append_code (.inl rfl)]
  | true =>
      have hrev : (startCode true ++ head :: rest).reverse
          = rest.reverse ++ [head, 1, 0, 0, 0] := by
        simp [startCode]
      rw [EndsBare, EndsBare, hrev, bareEnd_append_code (.inr rfl)]

/-- Where no start code stands, the byte there makes no difference either. -/
theorem endsBare_next {a : UInt8} {rest : List UInt8} (hlen : 3 ≤ rest.length)
    (hnone : startPrefix (a :: rest) = 0) : EndsBare (a :: rest) ↔ EndsBare rest := by
  rw [EndsBare, EndsBare, List.reverse_cons, bareEnd_append]
  · intro r hr hnot
    by_cases hrun : r = [1, 0] ∧ a = 0
    · -- then a start code would stand here
      obtain ⟨rfl, rfl⟩ := hrun
      obtain ⟨front, hfront⟩ := hr
      have hrest : rest = 0 :: 1 :: front.reverse := by
        rw [← List.reverse_reverse rest, ← hfront, List.reverse_append]
        rfl
      rw [hrest] at hnone
      simp [startPrefix] at hnone
    · rw [codeRun_eq_zero]
      intro rest' heq
      rcases r with - | ⟨b, - | ⟨c, - | ⟨d, r⟩⟩⟩
      · simp at heq
      · simp at heq
      · simp only [List.cons_append, List.nil_append, List.cons.injEq] at heq
        exact hrun ⟨by rw [heq.1, heq.2.1], heq.2.2.1⟩
      · simp only [List.cons_append, List.cons.injEq] at heq
        obtain ⟨rfl, rfl, rfl, -⟩ := heq
        exact hnot r rfl
  · intro hshort
    rw [List.length_reverse] at hshort
    have hthree : rest.length = 3 := by omega
    obtain ⟨b, c, d, rfl⟩ := List.length_eq_three.mp hthree
    refine bareEnd_eq_false fun rest' heq => ?_
    simp only [List.reverse_cons, List.reverse_nil, List.nil_append, List.cons_append,
      List.cons.injEq] at heq
    obtain ⟨rfl, rfl, rfl, rfl, -⟩ := heq
    simp [startPrefix] at hnone

end EndsBare

/-! ## The scan stays within the packet -/

section Bounds

variable {data : List UInt8}

theorem reads_eq {ws : List UInt8} {i : Nat} (h : i + ws.length ≤ data.length) :
    reads data i ws = some (decide ((data.drop i).take ws.length = ws)) := by
  induction ws generalizing i with
  | nil => simp [reads]
  | cons w ws ih =>
      rw [List.length_cons] at h
      have hlt : i < data.length := by omega
      rw [reads, List.getElem?_eq_getElem hlt, List.drop_eq_getElem_cons hlt, List.length_cons,
        List.take_succ_cons]
      simp only [Option.bind_eq_bind, Option.bind_some, List.cons.injEq]
      by_cases hw : data[i] = w
      · rw [if_pos hw, ih (by omega)]
        simp [hw]
      · rw [if_neg hw]
        simp [hw]

theorem prefixAt_eq {pos : Nat} (h : pos + 4 ≤ data.length) :
    prefixAt data pos = some (startPrefix (data.drop pos)) := by
  have h3 : reads data pos [0, 0, 1] = some (decide ((data.drop pos).take 3 = [0, 0, 1])) :=
    reads_eq (by simp only [List.length_cons, List.length_nil]; omega)
  have h4 : reads data pos [0, 0, 0, 1] = some (decide ((data.drop pos).take 4 = [0, 0, 0, 1])) :=
    reads_eq (by simp only [List.length_cons, List.length_nil]; omega)
  rw [prefixAt, h3, h4, if_pos h, startPrefix]
  simp only [Option.bind_eq_bind, Option.bind_some, decide_eq_true_eq]
  split_ifs <;> rfl

theorem startPrefix_of_prefixAt {pos n : Nat} (h : pos + 4 ≤ data.length)
    (hcode : prefixAt data pos = some n) : startPrefix (data.drop pos) = n :=
  Option.some.inj ((prefixAt_eq h).symm.trans hcode)

/-- A position where no start code stands makes no difference to the end of the packet. -/
theorem endsBare_drop_succ {pos : Nat} (h : pos + 3 < data.length)
    (hzero : startPrefix (data.drop pos) = 0) :
    EndsBare (data.drop pos) ↔ EndsBare (data.drop (pos + 1)) := by
  have hlen : 3 ≤ (data.drop (pos + 1)).length := by
    rw [List.length_drop]
    omega
  rw [List.drop_eq_getElem_cons (show pos < data.length by omega)] at hzero ⊢
  exact endsBare_next hlen hzero

/-- The `while` loop ends where a start code begins or too little is left for one, and what it
passes over makes no difference to the end of the packet. -/
theorem nalEndAt_spec (stop : Nat) :
    ∃ stop', nalEndAt data stop = some stop' ∧ (stop ≤ data.length → stop' ≤ data.length) ∧
      (EndsBare (data.drop stop') ↔ EndsBare (data.drop stop)) := by
  induction stop using nalEndAt.induct data with
  | case1 stop hlt hfail =>
      rw [startCodeAt_eq hlt] at hfail
      cases hfail
  | case2 stop hlt hnone ih =>
      obtain ⟨stop', hstop', hle, hends⟩ := ih
      have hzero : startPrefix (data.drop stop) = 0 :=
        startPrefix_of_startCodeAt hlt hnone
      refine ⟨stop', ?_, fun _ => hle (by omega), ?_⟩
      · rw [nalEndAt, if_pos hlt, hnone]
        exact hstop'
      · rw [hends]
        exact (endsBare_drop_succ hlt hzero).symm
  | case3 stop hlt n hcode =>
      refine ⟨stop, ?_, id, Iff.rfl⟩
      rw [nalEndAt, if_pos hlt, hcode]
  | case4 stop hge =>
      refine ⟨stop, ?_, id, Iff.rfl⟩
      rw [nalEndAt, if_neg hge]

theorem addNal_isSome {nal stop : Nat} (acc : Scan) (hnal : nal < stop)
    (hstop : stop ≤ data.length) : ∃ acc', addNal data nal stop acc = some acc' := by
  have hread : data[nal]? = some data[nal] := List.getElem?_eq_getElem (by omega)
  unfold addNal copyRange
  simp only [hread, Option.bind_eq_bind, Option.bind_some]
  by_cases hset : data[nal] &&& 31 = SPS ∨ data[nal] &&& 31 = PPS
  · rw [if_pos hset, if_pos ⟨hnal.le, hstop⟩]
    exact ⟨_, rfl⟩
  · rw [if_neg hset]
    split_ifs <;> exact ⟨_, rfl⟩

theorem nalScan_unit {pos n stop : Nat} (acc : Scan) (hlt : pos + 4 ≤ data.length)
    (hpref : prefixAt data pos = some (n + 1))
    (hstop : nalEndAt data (pos + (n + 1) + 1) = some stop) :
    nalScan data pos acc = (addNal data (pos + (n + 1)) stop acc).bind (nalScan data stop) := by
  rw [nalScan, if_pos hlt, hpref]
  dsimp only
  split
  · rename_i hnone
    rw [hstop] at hnone
    cases hnone
  · rename_i stop' hsome
    rw [hstop] at hsome
    cases hsome
    rfl

/-- From `pos` on the scan stays within the packet exactly if what is left does not end in a start
code that it comes to. -/
theorem nalScan_isSome_iff (pos : Nat) (acc : Scan) :
    (∃ acc', nalScan data pos acc = some acc') ↔ ¬ EndsBare (data.drop pos) := by
  induction pos, acc using nalScan.induct data with
  | case1 pos acc hlt hfail =>
      -- four bytes are left, so that the comparisons read none beyond them
      rw [prefixAt_eq hlt] at hfail
      cases hfail
  | case2 pos acc hlt hnone ih =>
      have hzero : startPrefix (data.drop pos) = 0 :=
        startPrefix_of_prefixAt hlt hnone
      rw [nalScan, if_pos hlt, hnone, endsBare_drop_succ (by omega) hzero]
      exact ih
  | case3 pos acc hlt n hcode nal hfail =>
      -- the loop over `end` is never out of bounds, also from beyond the packet
      obtain ⟨stop, hstop, -⟩ := nalEndAt_spec (nal + 1)
      rw [hstop] at hfail
      cases hfail
  | case4 pos acc hlt n hcode nal stop hstop ih =>
      have hpref : startPrefix (data.drop pos) = n + 1 :=
        startPrefix_of_prefixAt hlt hcode
      rw [nalScan_unit acc hlt hcode hstop]
      by_cases hnal : nal < data.length
      · -- a byte follows the start code
        have hdrop := List.drop_eq_getElem_cons hnal
        have hcut : (data.drop pos).drop (n + 1) = data[nal] :: data.drop (nal + 1) := by
          rw [List.drop_drop]
          exact hdrop
        obtain ⟨stop', hstop', hle, hends⟩ := nalEndAt_spec (nal + 1)
        obtain rfl : stop' = stop := Option.some.inj (hstop'.symm.trans hstop)
        have hge := le_nalEndAt hstop
        obtain ⟨acc', hacc'⟩ := addNal_isSome acc (show nal < stop' by omega) (hle (by omega))
        rw [endsBare_code hpref hcut, ← hends, hacc']
        exact ih acc'
      · -- the code is the end of the packet, and its payload is read beyond it
        have hread : data[nal]? = none := List.getElem?_eq_none (by omega)
        have hfail : addNal data nal stop acc = none := by
          rw [addNal, hread]
          rfl
        have hlen : (data.drop pos).length = data.length - pos := List.length_drop
        have hends : EndsBare (data.drop pos) := endsBare_of_code hpref (by omega) (by omega)
        rw [hfail]
        refine ⟨?_, fun h => absurd hends h⟩
        rintro ⟨acc', hacc'⟩
        cases hacc'
  | case5 pos acc hge =>
      rw [nalScan, if_neg hge]
      have hshort : (data.drop pos).length < 4 := by
        rw [List.length_drop]
        omega
      exact ⟨fun _ => not_endsBare_of_length_lt hshort, fun _ => ⟨acc, rfl⟩⟩

end Bounds

/-- **The scan of `OnVenc` stays within the packet exactly if the packet does not end in a start
code that it comes to.** -/
theorem nalScan_inBounds_iff (data : List UInt8) :
    (∃ scan, nalScan data 0 Scan.initial = some scan) ↔ ¬ EndsBare data :=
  nalScan_isSome_iff 0 Scan.initial

/-! ## What the scan finds -/

section Agree

variable {data : List UInt8}

theorem slice_cons {i j : Nat} (hlt : i < data.length) (hij : i < j) :
    slice data (i, j) = data[i] :: slice data (i + 1, j) := by
  obtain ⟨n, hn⟩ : ∃ n, j - i = n + 1 := ⟨j - i - 1, by omega⟩
  have hn' : j - (i + 1) = n := by omega
  rw [slice, slice, hn, hn', List.drop_eq_getElem_cons hlt, List.take_succ_cons]

theorem slice_self (i : Nat) : slice data (i, i) = [] := by
  simp [slice]

theorem nalEnd_eq_slice {stop stop' : Nat} (h : nalEndAt data stop = some stop') :
    nalEnd (data.drop stop) = (slice data (stop, stop'), data.drop stop') := by
  induction stop using nalEndAt.induct data with
  | case1 stop hlt hfail =>
      rw [startCodeAt_eq hlt] at hfail
      cases hfail
  | case2 stop hlt hnone ih =>
      have hzero : startPrefix (data.drop stop) = 0 :=
        startPrefix_of_startCodeAt hlt hnone
      rw [nalEndAt, if_pos hlt, hnone] at h
      have hrest := ih h
      have hle := le_nalEndAt h
      have hpos : stop < data.length := by omega
      have hlen : 3 < (data.drop stop).length := by
        rw [List.length_drop]
        omega
      rw [slice_cons hpos (by omega)]
      rw [List.drop_eq_getElem_cons hpos] at hzero hlen ⊢
      rw [nalEnd, if_pos ⟨hlen, hzero⟩, hrest]
  | case3 stop hlt n hcode =>
      have hpref : startPrefix (data.drop stop) = n + 1 :=
        startPrefix_of_startCodeAt hlt hcode
      rw [nalEndAt, if_pos hlt, hcode] at h
      obtain rfl := Option.some.inj h
      have hpos : stop < data.length := by omega
      rw [slice_self]
      rw [List.drop_eq_getElem_cons hpos] at hpref ⊢
      rw [nalEnd, if_neg (by omega)]
  | case4 stop hge =>
      rw [nalEndAt, if_neg hge] at h
      obtain rfl := Option.some.inj h
      rw [slice_self]
      cases hdrop : data.drop stop with
      | nil => rfl
      | cons b rest =>
          have hlen := congrArg List.length hdrop
          rw [List.length_drop] at hlen
          rw [nalEnd, if_neg (by omega)]

theorem copyRange_eq_some {nal stop : Nat} {bytes : List UInt8}
    (h : copyRange data nal stop = some bytes) : bytes = slice data (nal, stop) := by
  unfold copyRange at h
  split_ifs at h
  exact (Option.some.inj h).symm

/-- What is done with a unit, in terms of its bytes. -/
theorem addNal_eq {nal stop : Nat} {acc acc' : Scan} (hnal : nal < stop)
    (h : addNal data nal stop acc = some acc') :
    nal < data.length ∧ acc' = acc.add (slice data (nal, stop)) := by
  by_cases hlt : nal < data.length
  · refine ⟨hlt, ?_⟩
    have htype : typeOf (slice data (nal, stop)) = data[nal] &&& 0x1f := by
      rw [slice_cons hlt hnal]
      rfl
    unfold addNal at h
    rw [List.getElem?_eq_getElem hlt] at h
    simp only [Option.bind_eq_bind, Option.bind_some] at h
    unfold Scan.add
    rw [htype]
    by_cases hset : data[nal] &&& 0x1f = SPS ∨ data[nal] &&& 0x1f = PPS
    · rw [if_pos hset] at h
      obtain ⟨bytes, hbytes, hpure⟩ := Option.bind_eq_some_iff.mp h
      rw [← copyRange_eq_some hbytes, ← Option.some.inj hpure]
      by_cases hsps : data[nal] &&& 0x1f = SPS
      · simp [hsps, parameterSet]
      · have hpps := hset.resolve_left hsps
        simp [hpps, parameterSet, SPS, PPS]
    · rw [if_neg hset] at h
      rw [not_or] at hset
      simp only [hset.1, hset.2, if_false]
      by_cases hidr : data[nal] &&& 0x1f = IDR
      · rw [if_pos hidr] at h ⊢
        exact (Option.some.inj h).symm
      · rw [if_neg hidr] at h ⊢
        exact (Option.some.inj h).symm
  · rw [addNal, List.getElem?_eq_none (by omega)] at h
    cases h

/-- A scan that stays within the packet finds what the scan of its bytes finds, whatever lies
beyond the packet. -/
theorem nalScan_eq_scanLoop (beyond : UInt8) {pos turns : Nat} {acc scan : Scan}
    (hturns : data.length ≤ pos + turns) (h : nalScan data pos acc = some scan) :
    scanLoop beyond turns (data.drop pos) acc = scan := by
  induction pos, acc using nalScan.induct data generalizing turns with
  | case1 pos acc hlt hfail =>
      rw [prefixAt_eq hlt] at hfail
      cases hfail
  | case2 pos acc hlt hnone ih =>
      have hzero : startPrefix (data.drop pos) = 0 :=
        startPrefix_of_prefixAt hlt hnone
      rw [nalScan, if_pos hlt, hnone] at h
      obtain ⟨turns, rfl⟩ : ∃ t, turns = t + 1 := ⟨turns - 1, by omega⟩
      have hrest := ih (show data.length ≤ pos + 1 + turns by omega) h
      have hlen : ¬ (data.drop pos).length < 4 := by
        rw [List.length_drop]
        omega
      rw [scanLoop, if_neg hlen, if_pos hzero, List.tail_drop]
      exact hrest
  | case3 pos acc hlt n hcode nal =>
      rename_i hfail
      obtain ⟨stop, hstop, -⟩ := nalEndAt_spec (pos + (n + 1) + 1)
      rw [hstop] at hfail
      cases hfail
  | case4 pos acc hlt n hcode nal stop hstop =>
      rename_i ih
      have hpref : startPrefix (data.drop pos) = n + 1 :=
        startPrefix_of_prefixAt hlt hcode
      rw [nalScan_unit acc hlt hcode hstop] at h
      -- what is taken off the list is the range that the index loops found
      obtain ⟨acc', hacc', hscan⟩ := Option.bind_eq_some_iff.mp h
      have hge := le_nalEndAt hstop
      obtain ⟨hnal, rfl⟩ := addNal_eq (show pos + (n + 1) < stop by omega) hacc'
      obtain ⟨turns, rfl⟩ : ∃ t, turns = t + 1 := ⟨turns - 1, by omega⟩
      have hrest := ih _ (show data.length ≤ stop + turns by omega) hscan
      have hlen : ¬ (data.drop pos).length < 4 := by
        rw [List.length_drop]
        omega
      have hunit : takeNal beyond ((data.drop pos).drop (n + 1))
          = (slice data (pos + (n + 1), stop), data.drop stop) := by
        have hcut : (data.drop pos).drop (n + 1)
            = data[pos + (n + 1)] :: data.drop (pos + (n + 1) + 1) := by
          rw [List.drop_drop]
          exact List.drop_eq_getElem_cons hnal
        rw [hcut, takeNal, nalEnd_eq_slice hstop, slice_cons hnal (by omega)]
      rw [scanLoop, if_neg hlen, if_neg (by omega), hpref]
      simp only [hunit]
      exact hrest
  | case5 pos acc hge =>
      rw [nalScan, if_neg hge] at h
      have hshort : (data.drop pos).length < 4 := by
        rw [List.length_drop]
        omega
      rw [scanLoop_short beyond turns acc hshort]
      exact Option.some.inj h

theorem scanPacket_of_nalScan (beyond : UInt8) {scan : Scan}
    (h : nalScan data 0 Scan.initial = some scan) : scanPacket beyond data = scan :=
  nalScan_eq_scanLoop beyond (by omega) h

end Agree

/-- The payload of a packet that is a start code only is read beyond its end. -/
theorem not_nalScan_inBounds :
    ¬ ∀ data : List UInt8, 1 ≤ data.length →
      ∃ scan, nalScan data 0 Scan.initial = some scan := by
  intro h
  have hnone : nalScan [0, 0, 0, 1] 0 Scan.initial = none := by decide +kernel
  obtain ⟨scan, hscan⟩ := h [0, 0, 0, 1] (by decide)
  rw [hnone] at hscan
  cases hscan

example : nalScan [0, 0, 1, 7, 3, 0, 0, 1, 8] 0 Scan.initial
    = some ⟨[0, 0, 0, 1, 7, 3, 0, 0, 0, 1, 8], true, true, false⟩ := by
  decide +kernel

end QcapDemos.Tx

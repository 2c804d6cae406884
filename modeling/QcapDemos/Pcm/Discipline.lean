import QcapDemos.Lib.Run
import QcapDemos.Pcm.WriteQueue

set_option autoImplicit false

/-! # The PCM write queue: periods and bounds

The device is fed whole periods, except after a short write: then the rest of the queue may
follow at once, and `short_tail` remembers this from call to call. What the flag remembers is
read off the log of the queue here (`LeftShort`), and one `drain` is bounded in its writes, in
its recoveries and in what it leaves behind.
-/

namespace QcapDemos.Pcm

/-! ## What `short_tail` remembers -/

def QueueEvent.isWrite : QueueEvent → Bool
  | .write _ _ _ => true
  | _ => false

def QueueEvent.isPrepare : QueueEvent → Bool
  | .prepare _ => true
  | _ => false

/-- A write that accepted frames, but not all that were offered. -/
def QueueEvent.isShort : QueueEvent → Bool
  | .write _ requested written => decide (accepts requested written ∧ written < requested)
  | _ => false

/-- An event that decides the flag anew: a successful write or an overflow. -/
def QueueEvent.settles : QueueEvent → Bool
  | .overflow _ => true
  | .write _ requested written => decide (accepts requested written)
  | .prepare _ => false

/-- The last successful write of the log was short, and no overflow came after it. -/
def LeftShort (log : List QueueEvent) : Prop :=
  ∃ before e after, log = before ++ e :: after ∧ e.isShort = true ∧
    ∀ e' ∈ after, e'.settles = false

/-- The flag after a log, from the flag before it. -/
def flagAfter (flag : Bool) (log : List QueueEvent) : Bool :=
  log.foldl (fun flag e => if e.settles then e.isShort else flag) flag

theorem flagAfter_snoc (flag : Bool) (log : List QueueEvent) (e : QueueEvent) :
    flagAfter flag (log ++ [e]) = if e.settles then e.isShort else flagAfter flag log := by
  unfold flagAfter
  rw [List.foldl_append]
  rfl

theorem leftShort_append {log log' : List QueueEvent} (h : LeftShort log)
    (hidle : ∀ e ∈ log', e.settles = false) : LeftShort (log ++ log') := by
  obtain ⟨before, e, after, rfl, hshort, hafter⟩ := h
  refine ⟨before, e, after ++ log', by simp, hshort, fun e' he' => ?_⟩
  rcases List.mem_append.mp he' with he' | he'
  · exact hafter e' he'
  · exact hidle e' he'

theorem LeftShort.append_left {log : List QueueEvent} (h : LeftShort log)
    (history : List QueueEvent) : LeftShort (history ++ log) := by
  obtain ⟨before, e, after, rfl, hshort, hafter⟩ := h
  exact ⟨history ++ before, e, after, by simp, hshort, hafter⟩

theorem settles_of_isShort {e : QueueEvent} (h : e.isShort = true) : e.settles = true := by
  cases e with
  | overflow bytes => rfl
  | write offered requested written =>
      exact decide_eq_true (of_decide_eq_true h).1
  | prepare result => cases h

/-- The flag is set by a short write that still stands, or was set before and nothing has
decided it since. -/
theorem flagAfter_iff (flag : Bool) (log : List QueueEvent) :
    flagAfter flag log = true ↔
      LeftShort log ∨ (flag = true ∧ ∀ e ∈ log, e.settles = false) := by
  induction log generalizing flag with
  | nil =>
      constructor
      · exact fun h => .inr ⟨h, by simp⟩
      · rintro (⟨before, e, after, hlog, -⟩ | ⟨hflag, -⟩)
        · simp at hlog
        · exact hflag
  | cons e log ih =>
      show flagAfter (if e.settles then e.isShort else flag) log = true ↔ _
      rw [ih]
      constructor
      · -- either the rest decides the flag, or the first event does, or nothing
        rintro (hshort | ⟨hflag, hidle⟩)
        · exact .inl (hshort.append_left [e])
        · by_cases hsettles : e.settles = true
          · rw [if_pos hsettles] at hflag
            exact .inl ⟨[], e, log, rfl, hflag, hidle⟩
          · rw [if_neg hsettles] at hflag
            refine .inr ⟨hflag, fun e' he' => ?_⟩
            rcases List.mem_cons.mp he' with rfl | he'
            · exact Bool.eq_false_iff.mpr hsettles
            · exact hidle e' he'
      · rintro (⟨before, e', after, hlog, hshort, hafter⟩ | ⟨hflag, hidle⟩)
        -- the short write is the first event, or lies in the rest
        · cases before with
          | nil =>
              obtain ⟨rfl, rfl⟩ := List.cons.inj hlog
              refine .inr ⟨?_, hafter⟩
              rw [if_pos (settles_of_isShort hshort)]
              exact hshort
          | cons b before =>
              obtain ⟨rfl, rfl⟩ := List.cons.inj hlog
              exact .inl ⟨before, e', after, rfl, hshort, hafter⟩
        · have he := hidle e List.mem_cons_self
          refine .inr ⟨?_, fun e' he' => hidle e' (List.mem_cons_of_mem e he')⟩
          rw [if_neg (by simp [he])]
          exact hflag

/-! ## The invariant of the loop -/

/-- A write that comes after the events `before` of a call: it offers the head of what is left
of the queue `start`, a whole period of it unless the flag is set. -/
structure Offers (start : List UInt8) (flag : Bool) (before : List QueueEvent)
    (offered : List UInt8) (requested : Nat) : Prop where
  nonempty : 1 ≤ requested
  atMostChunk : requested ≤ chunk
  whole : offered.length = requested * frameBytes
  head : before.flatMap QueueEvent.departed ++ offered <+: start
  short : requested < chunk → flagAfter flag before = true

/-- Every write of a log is a proper offer. -/
def Offered (start : List UInt8) (flag : Bool) (log : List QueueEvent) : Prop :=
  ∀ before offered requested written after,
    log = before ++ .write offered requested written :: after →
      Offers start flag before offered requested

/-- The state of a loop that has made `attempts` writes, all of them successful. -/
structure Feeding (start : List UInt8) (flag : Bool) (attempts : Nat) (d : Drain) : Prop where
  conserves : Conserves start d
  writes : d.log.countP QueueEvent.isWrite = attempts
  prepares : d.log.countP QueueEvent.isPrepare = 0
  successful : ∀ offered requested written,
    .write offered requested written ∈ d.log → accepts requested written
  offered : Offered start flag d.log
  flag : d.shortTail = flagAfter flag d.log
  flagged : d.shortTail = true → d.pending ≠ []
  bounded : d.pending.length ≤ maxFrames * frameBytes

/-- What a drain leaves behind. A write that is not successful is its last one. -/
structure Drained (start : List UInt8) (flag : Bool) (d : Drain) : Prop where
  conserves : Conserves start d
  writes : d.log.countP QueueEvent.isWrite ≤ maxAttempts
  prepares : d.log.countP QueueEvent.isPrepare ≤ 1
  offered : Offered start flag d.log
  flag : d.shortTail = flagAfter flag d.log
  flagged : d.shortTail = true → d.pending ≠ []
  bounded : d.pending.length ≤ maxFrames * frameBytes
  refused : ∀ before offered requested written after,
    d.log = before ++ .write offered requested written :: after →
      ¬ accepts requested written → (∀ e ∈ after, e.isWrite = false) ∧
        before.flatMap QueueEvent.departed ++ d.pending = start

theorem Offered.snoc {start : List UInt8} {flag : Bool} {log : List QueueEvent} {e : QueueEvent}
    (h : Offered start flag log)
    (he : ∀ offered requested written, e = .write offered requested written →
      Offers start flag log offered requested) : Offered start flag (log ++ [e]) := by
  intro before offered requested written after hsplit
  rcases Lib.snoc_eq_append_cons hsplit with ⟨rfl, hw, -⟩ | ⟨after', -, hlog⟩
  · exact he _ _ _ hw.symm
  · exact h _ _ _ _ _ hlog

/-- The event of the write that the loop makes next. -/
def nextWrite (d : Drain) (written : Int) : QueueEvent :=
  .write (d.pending.take (min (d.pending.length / frameBytes) chunk * frameBytes))
    (min (d.pending.length / frameBytes) chunk) written

/-- The loop goes on with this queue. -/
def Continues (d : Drain) : Prop :=
  ¬ (d.pending.length / frameBytes = 0 ∨
    ((!d.shortTail) = true ∧ d.pending.length / frameBytes < chunk))

section Steps

variable {start : List UInt8} {flag : Bool} {attempts : Nat} {d : Drain}

theorem Feeding.offers (h : Feeding start flag attempts d) (hgo : Continues d) :
    Offers start flag d.log
      (d.pending.take (min (d.pending.length / frameBytes) chunk * frameBytes))
      (min (d.pending.length / frameBytes) chunk) := by
  unfold Continues at hgo
  rw [not_or, not_and] at hgo
  have hfit : min (d.pending.length / frameBytes) chunk * frameBytes ≤ d.pending.length :=
    le_trans (Nat.mul_le_mul_right _ (Nat.min_le_left _ _)) (Nat.div_mul_le_self _ _)
  refine ⟨Nat.le_min.mpr ⟨Nat.one_le_iff_ne_zero.mpr hgo.1, by decide⟩,
    Nat.min_le_right _ _, ?_, ?_, ?_⟩
  · rw [List.length_take, Nat.min_eq_left hfit]
  · -- what has departed and what is pending make up the queue of the call
    rw [← h.conserves.bytes]
    exact (List.prefix_append_right_inj _).mpr (List.take_prefix _ _)
  · intro hshort
    rw [← h.flag]
    by_contra hclear
    refine hgo.2 (by simpa using hclear) ?_
    rcases min_lt_iff.mp hshort with hlt | hlt
    · exact hlt
    · exact absurd hlt (lt_irrefl _)

theorem Feeding.accept (h : Feeding start flag attempts d) (hgo : Continues d) {written : Int}
    (hacc : accepts (min (d.pending.length / frameBytes) chunk) written) :
    Feeding start flag (attempts + 1)
      (acceptWrite (min (d.pending.length / frameBytes) chunk) written
        { d with log := d.log ++ [nextWrite d written] }) := by
  have hoffers := h.offers hgo
  have hsettles : (nextWrite d written).settles = true := decide_eq_true hacc
  refine ⟨h.conserves.accept (Nat.min_le_left _ _) hacc, ?_, ?_, ?_, ?_, ?_, ?_, ?_⟩
  · show (d.log ++ [nextWrite d written]).countP QueueEvent.isWrite = attempts + 1
    rw [List.countP_append, h.writes]
    rfl
  · show (d.log ++ [nextWrite d written]).countP QueueEvent.isPrepare = 0
    rw [List.countP_append, h.prepares]
    rfl
  · intro offered requested written' hmem
    rcases List.mem_append.mp hmem with hmem | hmem
    · exact h.successful _ _ _ hmem
    · obtain ⟨-, rfl, rfl⟩ := QueueEvent.write.inj (List.mem_singleton.mp hmem)
      exact hacc
  · refine h.offered.snoc fun offered requested written' hwrite => ?_
    obtain ⟨rfl, rfl, -⟩ := QueueEvent.write.inj hwrite
    exact hoffers
  · -- the source sets the flag to `written < frames`, and the log says the same
    show decide (written < _) = flagAfter flag (d.log ++ [nextWrite d written])
    rw [flagAfter_snoc, if_pos hsettles]
    exact decide_eq_decide.mpr ⟨fun hlt => ⟨hacc, hlt⟩, fun hshort => hshort.2⟩
  · intro hshort hempty
    have hlt : written < (min (d.pending.length / frameBytes) chunk : Nat) :=
      of_decide_eq_true hshort
    -- a short write leaves a frame of those it was offered
    have hleft : d.pending.length ≤ written.toNat * frameBytes :=
      List.drop_eq_nil_iff.mp hempty
    have hfewer : written.toNat < d.pending.length / frameBytes :=
      lt_of_lt_of_le (by have := hacc.1; omega) (Nat.min_le_left _ chunk)
    have hbytes : written.toNat * frameBytes < d.pending.length :=
      lt_of_lt_of_le (Nat.mul_lt_mul_of_pos_right hfewer (by decide))
        (Nat.div_mul_le_self _ _)
    exact absurd hleft (Nat.not_le.mpr hbytes)
  · show (d.pending.drop (written.toNat * frameBytes)).length ≤ _
    rw [List.length_drop]
    exact le_trans (Nat.sub_le _ _) h.bounded

/-- A loop that ends without another write. -/
theorem Feeding.drained (h : Feeding start flag attempts d) (hle : attempts ≤ maxAttempts) :
    Drained start flag d := by
  refine ⟨h.conserves, h.writes ▸ hle, by rw [h.prepares]; exact Nat.zero_le 1, h.offered,
    h.flag, h.flagged, h.bounded, ?_⟩
  intro before offered requested written after hlog hrej
  refine absurd (h.successful offered requested written ?_) hrej
  rw [hlog]
  exact List.mem_append_right _ List.mem_cons_self

/-- A loop that ends with an unsuccessful write, and what is logged after that. -/
theorem Feeding.drained_refused (h : Feeding start flag attempts d) (hgo : Continues d)
    (hmore : attempts < maxAttempts) {written : Int}
    (hrej : ¬ accepts (min (d.pending.length / frameBytes) chunk) written)
    {r : Drain} {tail : List QueueEvent} (hconserves : Conserves start r)
    (htail : tail = [] ∨ ∃ result, tail = [.prepare result])
    (hlog : r.log = d.log ++ [nextWrite d written] ++ tail) (hp : r.pending = d.pending)
    (hs : r.shortTail = d.shortTail) : Drained start flag r := by
  have hidle : ∀ e ∈ tail, e.settles = false ∧ e.isWrite = false := by
    rcases htail with rfl | ⟨result, rfl⟩
    · simp
    · simp [QueueEvent.settles, QueueEvent.isWrite]
  have hunsettled : (nextWrite d written).settles = false := decide_eq_false hrej
  have hwrites : tail.countP QueueEvent.isWrite = 0 := by
    rw [List.countP_eq_zero]
    intro e he
    simp [(hidle e he).2]
  have hoffered : Offered start flag (d.log ++ [nextWrite d written]) := by
    refine h.offered.snoc fun offered requested written' hwrite => ?_
    obtain ⟨rfl, rfl, -⟩ := QueueEvent.write.inj hwrite
    exact h.offers hgo
  refine ⟨hconserves, ?_, ?_, ?_, ?_, ?_, ?_, ?_⟩
  · rw [hlog, List.countP_append, List.countP_append, h.writes, hwrites]
    show attempts + 1 + 0 ≤ maxAttempts
    omega
  · rw [hlog, List.countP_append, List.countP_append, h.prepares]
    rcases htail with rfl | ⟨result, rfl⟩
    · exact Nat.zero_le 1
    · exact le_rfl
  · rw [hlog]
    rcases htail with rfl | ⟨result, rfl⟩
    · rw [List.append_nil]
      exact hoffered
    · exact hoffered.snoc fun _ _ _ hwrite => by cases hwrite
  · rw [hs, h.flag, hlog]
    rcases htail with rfl | ⟨result, rfl⟩
    · rw [List.append_nil, flagAfter_snoc, if_neg (by simp [hunsettled])]
    · rw [flagAfter_snoc, if_neg (by simp [QueueEvent.settles]), flagAfter_snoc,
        if_neg (by simp [hunsettled])]
  · rw [hs, hp]
    exact h.flagged
  · rw [hp]
    exact h.bounded
  · intro before offered requested written' after hsplit hrej'
    -- the writes before this one were successful
    have hlast : ∀ after', d.log ++ [nextWrite d written]
        = before ++ .write offered requested written' :: after' → before = d.log ∧ after' = [] := by
      intro after' h'
      rcases Lib.snoc_eq_append_cons h' with ⟨hbefore, -, hafter⟩ | ⟨after'', -, hearlier⟩
      · exact ⟨hbefore, hafter⟩
      · refine absurd (h.successful offered requested written' ?_) hrej'
        rw [hearlier]
        exact List.mem_append_right _ List.mem_cons_self
    rw [hp]
    rw [hlog] at hsplit
    rcases htail with rfl | ⟨result, rfl⟩
    · rw [List.append_nil] at hsplit
      obtain ⟨rfl, rfl⟩ := hlast after hsplit
      exact ⟨by simp, h.conserves.bytes⟩
    · rcases Lib.snoc_eq_append_cons hsplit with ⟨-, hw, -⟩ | ⟨after', rfl, hearlier⟩
      · cases hw
      · obtain ⟨rfl, rfl⟩ := hlast after' hearlier
        exact ⟨by simp [QueueEvent.isWrite], h.conserves.bytes⟩

theorem Feeding.refuse (h : Feeding start flag attempts d) (hgo : Continues d)
    (hmore : attempts < maxAttempts) {written : Int}
    (hrej : ¬ accepts (min (d.pending.length / frameBytes) chunk) written) (prepare : Int) :
    Drained start flag (refuseWrite written prepare
      { d with log := d.log ++ [nextWrite d written] }) := by
  have hidle : (nextWrite d written).departed = [] := by
    simp [nextWrite, QueueEvent.departed, QueueEvent.accepted, QueueEvent.dropped, hrej]
  have hconserves : Conserves start { d with log := d.log ++ [nextWrite d written] } :=
    h.conserves.log_idle hidle rfl rfl rfl rfl
  have hrefuse : Conserves start (refuseWrite written prepare
      { d with log := d.log ++ [nextWrite d written] }) := hconserves.refuse
  revert hrefuse
  fun_cases refuseWrite written prepare { d with log := d.log ++ [nextWrite d written] } with
  | case1 hagain =>
      exact fun hrefuse => h.drained_refused hgo hmore hrej hrefuse (.inl rfl)
        (List.append_nil _).symm rfl rfl
  | case2 hagain hxrun =>
      exact fun hrefuse => h.drained_refused hgo hmore hrej hrefuse (.inr ⟨prepare, rfl⟩)
        rfl rfl rfl
  | case3 hagain hxrun =>
      exact fun hrefuse => h.drained_refused hgo hmore hrej hrefuse (.inl rfl)
        (List.append_nil _).symm rfl rfl

end Steps

/-! ## The run of the loop -/

/-- The queue that the loop starts with, oversized or not. -/
theorem feeding_dropOverflow {start : List UInt8} {flag : Bool}
    (haligned : frameBytes ∣ start.length) (hentry : flag = true → start ≠ []) :
    Feeding start flag 0 (dropOverflow { pending := start, shortTail := flag }) := by
  have hconserves := conserves_dropOverflow flag haligned
  by_cases hlong : maxFrames * frameBytes < start.length
  · rw [dropOverflow_of_lt (d := { pending := start, shortTail := flag }) hlong] at hconserves ⊢
    refine ⟨hconserves, rfl, rfl, by simp, ?_, rfl, (fun hset => by cases hset), ?_⟩
    · -- the overflow is the only event yet, and it is no write
      intro before offered requested written after hlog
      rcases Lib.snoc_eq_append_cons hlog with ⟨-, hw, -⟩ | ⟨after', -, hnil⟩
      · cases hw
      · simp at hnil
    · rw [List.length_drop]
      omega
  · rw [dropOverflow_of_le (d := { pending := start, shortTail := flag }) (Nat.not_lt.mp hlong)]
      at hconserves ⊢
    refine ⟨hconserves, rfl, rfl, by simp, ?_, rfl, hentry, Nat.not_lt.mp hlong⟩
    intro before offered requested written after hlog
    simp at hlog

/-- The run lemma of the loop, by induction on the attempts left. -/
theorem Feeding.writeLoop {start : List UInt8} {flag : Bool} (write : Nat → Int) (prepare : Int)
    {left attempts : Nat} {d : Drain} (h : Feeding start flag attempts d)
    (hbudget : attempts + left ≤ maxAttempts) :
    Drained start flag (writeLoop write prepare left attempts d) := by
  induction left generalizing attempts d with
  | zero => exact h.drained hbudget
  | succ left ih =>
      simp only [Pcm.writeLoop]
      split
      · exact h.drained (by omega)
      · rename_i hgo
        split
        · rename_i hacc
          exact ih (h.accept hgo hacc) (by omega)
        · rename_i hrej
          exact h.refuse hgo (by omega) hrej prepare

theorem log_prefix_refuseWrite (written prepare : Int) (d : Drain) :
    d.log <+: (refuseWrite written prepare d).log := by
  fun_cases refuseWrite written prepare d with
  | case1 => exact List.prefix_rfl
  | case2 => exact List.prefix_append _ _
  | case3 => exact List.prefix_rfl

/-- Nothing is taken out of a log. -/
theorem log_prefix_writeLoop (write : Nat → Int) (prepare : Int) (left attempts : Nat)
    (d : Drain) : d.log <+: (writeLoop write prepare left attempts d).log := by
  induction left generalizing attempts d with
  | zero => exact List.prefix_rfl
  | succ left ih =>
      simp only [Pcm.writeLoop]
      split
      · exact List.prefix_rfl
      · split
        · exact (List.prefix_append _ [nextWrite d (write attempts)]).trans
            (ih (attempts + 1) (acceptWrite (min (d.pending.length / frameBytes) chunk)
              (write attempts)
              { d with log := d.log ++ [nextWrite d (write attempts)] }))
        · exact (List.prefix_append _ [nextWrite d (write attempts)]).trans
            (log_prefix_refuseWrite (write attempts) prepare
              { d with log := d.log ++ [nextWrite d (write attempts)] })

/-- Every write of the log was accepted in full. -/
def AllFull (log : List QueueEvent) : Prop :=
  ∀ offered (requested : Nat) (written : Int), .write offered requested written ∈ log →
    written = requested

/-- A loop with enough attempts for its queue, whose writes are all accepted in full, stops
only at less than a period. -/
theorem writeLoop_allFull (write : Nat → Int) (prepare : Int) {left attempts : Nat} {d : Drain}
    (henough : d.pending.length / frameBytes ≤ left * chunk)
    (hfull : AllFull (writeLoop write prepare left attempts d).log) :
    (writeLoop write prepare left attempts d).pending.length / frameBytes < chunk := by
  induction left generalizing attempts d with
  | zero =>
      -- sixteen full writes are two queues of the greatest length
      rw [Nat.zero_mul] at henough
      exact lt_of_le_of_lt henough (by decide)
  | succ left ih =>
      simp only [Pcm.writeLoop] at hfull ⊢
      split at hfull
      · rename_i hstop
        rw [if_pos hstop]
        rcases hstop with hempty | hless
        · rw [hempty]
          decide
        · exact hless.2
      · rename_i hgo
        rw [if_neg hgo]
        split at hfull
        · rename_i hacc
          rw [if_pos hacc]
          -- the write is still in the log at the end, so it was a full one
          have hlogged := (log_prefix_writeLoop write prepare left (attempts + 1)
            (acceptWrite (min (d.pending.length / frameBytes) chunk) (write attempts)
              { d with log := d.log ++ [nextWrite d (write attempts)] })).subset
            (List.mem_append_right d.log (List.mem_singleton.mpr rfl))
          have hwritten := hfull _ _ _ hlogged
          refine ih ?_ hfull
          show (d.pending.drop ((write attempts).toNat * frameBytes)).length / frameBytes ≤ _
          rw [hwritten, Int.toNat_natCast, List.length_drop, Nat.mul_comm, Nat.sub_mul_div]
          rw [Nat.succ_mul] at henough
          rcases le_total (d.pending.length / frameBytes) chunk with hle | hle
          · rw [Nat.min_eq_left hle, Nat.sub_self]
            exact Nat.zero_le _
          · rw [Nat.min_eq_right hle]
            exact Nat.sub_le_iff_le_add.mpr henough
        · rename_i hrej
          -- a full write is a successful one
          have hlogged : nextWrite d (write attempts) ∈ (refuseWrite (write attempts) prepare
              { d with log := d.log ++ [nextWrite d (write attempts)] }).log :=
            (log_prefix_refuseWrite (write attempts) prepare
              { d with log := d.log ++ [nextWrite d (write attempts)] }).subset
              (List.mem_append_right d.log (List.mem_singleton.mpr rfl))
          have hwritten := hfull _ _ _ hlogged
          rw [not_or] at hgo
          refine absurd ⟨?_, hwritten.le⟩ hrej
          rw [hwritten]
          exact Int.natCast_pos.mpr (Nat.lt_min.mpr ⟨Nat.pos_of_ne_zero hgo.1, by decide⟩)

/-! ## The discipline of a drain -/

theorem drain_drained (write : Nat → Int) (prepare : Int) {pending : List UInt8}
    {shortTail : Bool} (haligned : frameBytes ∣ pending.length)
    (hentry : shortTail = true → pending ≠ []) :
    Drained pending shortTail (drain write prepare pending shortTail) :=
  (feeding_dropOverflow haligned hentry).writeLoop write prepare (by decide)

theorem drain_allFull (write : Nat → Int) (prepare : Int) {pending : List UInt8}
    {shortTail : Bool} (haligned : frameBytes ∣ pending.length)
    (hentry : shortTail = true → pending ≠ [])
    (hfull : AllFull (drain write prepare pending shortTail).log) :
    (drain write prepare pending shortTail).pending.length / frameBytes < chunk := by
  refine writeLoop_allFull write prepare ?_ hfull
  have hbounded := (feeding_dropOverflow haligned hentry).bounded
  exact le_trans (Nat.div_le_of_le_mul (Nat.mul_comm maxFrames frameBytes ▸ hbounded))
    (by decide)

/-- A flag that was right about the earlier calls is right about the later ones. -/
theorem leftShort_of_flagAfter {shortTail : Bool} {history log : List QueueEvent}
    (hhistory : shortTail = true → LeftShort history) (h : flagAfter shortTail log = true) :
    LeftShort (history ++ log) := by
  rcases (flagAfter_iff shortTail log).mp h with hshort | ⟨hset, hidle⟩
  · exact hshort.append_left history
  · exact leftShort_append (hhistory hset) hidle

/-- **`drain` is bounded and keeps the periods**, whatever the calls return. `history` is what
happened to the queue in the calls before this one. -/
theorem drain_disciplined (write : Nat → Int) (prepare : Int) {pending : List UInt8}
    {shortTail : Bool} (haligned : frameBytes ∣ pending.length)
    (hentry : shortTail = true → pending ≠ []) {history : List QueueEvent}
    (hhistory : shortTail = true → LeftShort history) :
    let d := drain write prepare pending shortTail
    d.log.countP QueueEvent.isWrite ≤ 16 ∧ d.log.countP QueueEvent.isPrepare ≤ 1 ∧
    (∀ before offered requested written after,
      d.log = before ++ .write offered requested written :: after →
        before.flatMap QueueEvent.departed ++ offered <+: pending ∧
        offered.length = requested * 8 ∧ 1 ≤ requested ∧ requested ≤ 960 ∧
        (requested < 960 → LeftShort (history ++ before)) ∧
        (¬ accepts requested written → (∀ e ∈ after, e.isWrite = false) ∧
          before.flatMap QueueEvent.departed ++ d.pending = pending)) ∧
    8 ∣ d.pending.length ∧ d.pending.length ≤ 7680 * 8 ∧
    (d.shortTail = true → d.pending ≠ [] ∧ LeftShort (history ++ d.log) ∧
      (LeftShort d.log ∨ (shortTail = true ∧ ∀ e ∈ d.log, e.settles = false))) ∧
    (AllFull d.log → d.pending.length / 8 < 960) := by
  intro d
  have h : Drained pending shortTail d := drain_drained write prepare haligned hentry
  refine ⟨h.writes, h.prepares, ?_, h.conserves.aligned, h.bounded, ?_, ?_⟩
  · intro before offered requested written after hlog
    have hoffers := h.offered before offered requested written after hlog
    exact ⟨hoffers.head, hoffers.whole, hoffers.nonempty, hoffers.atMostChunk,
      fun hless => leftShort_of_flagAfter hhistory (hoffers.short hless),
      h.refused before offered requested written after hlog⟩
  · intro hset
    have hflag : flagAfter shortTail d.log = true := h.flag ▸ hset
    exact ⟨h.flagged hset, leftShort_of_flagAfter hhistory hflag,
      (flagAfter_iff shortTail d.log).mp hflag⟩
  · exact drain_allFull write prepare haligned hentry

/-- Two frames are left of a period that was cut short, and the device is full. -/
theorem drain_disciplined_tail :
    let d := drain (fun _ => -EAGAIN) 0 (List.replicate 16 7) true
    d.log.countP QueueEvent.isWrite ≤ 16 ∧ d.pending.length ≤ 7680 * 8 ∧
      LeftShort ([.write (List.replicate 7680 7) 960 958] ++ d.log) := by
  have hcut : true = true → LeftShort [.write (List.replicate 7680 7) 960 958] :=
    fun _ => ⟨[], _, [], rfl, by decide, by simp⟩
  have haligned : frameBytes ∣ (List.replicate 16 (7 : UInt8)).length := by decide
  have h := drain_disciplined (fun _ => -EAGAIN) 0 haligned (fun _ => by decide) hcut
  exact ⟨h.1, h.2.2.2.2.1, (h.2.2.2.2.2.1 (by decide)).2.1⟩

end QcapDemos.Pcm

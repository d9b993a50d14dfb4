import VoltageCapture.Reader

/-!
# Reading in full

A reader is forthcoming if each of its attempts that does not fail may hand over at least one
byte, and reliable if it never breaks besides.  How long its deliveries are and how often it is
interrupted does not show to a caller of `Reader.readFull`.

* `takes_of_read`: a call takes the bytes off the reader that it hands over, and counts them.
* `readFull_of_forthcoming`: the call gives the first bytes of the source, as many as are wanted
  or as there are, and leaves the others, unless the reader breaks ahead of the last of them.
  Then the bytes handed over by that time are gone.
* `readFull_of_reliable`: a reliable reader never does.
-/

namespace VoltageCapture

/-- The bytes that a call hands over. -/
def Delivery.handedOver : Delivery → Bytes
  | .bytes delivered => delivered
  | .interrupted | .failed _ => []

/-- A reader that never withholds a byte that it has.  It may break. -/
structure Reader.Forthcoming (reader : Reader) : Prop where
  limit_pos : ∀ attempt bound, reader.limit attempt = some bound → 0 < bound

/-- A reader that never breaks and never withholds a byte that it has. -/
structure Reader.Reliable (reader : Reader) : Prop where
  failure_eq : reader.failure = none
  limit_pos : ∀ attempt bound, reader.limit attempt = some bound → 0 < bound

namespace Reader

variable {reader after : Reader} {wanted count : Nat}

theorem Reliable.forthcoming (hreader : reader.Reliable) : reader.Forthcoming :=
  ⟨hreader.limit_pos⟩

theorem Reliable.ofBytes (bytes : Bytes) : (Reader.ofBytes bytes).Reliable :=
  ⟨rfl, fun _ _ hlimit => nomatch hlimit⟩

/-- A reader of given bytes that gives at most `limit` of them at a time and is
interrupted so many times ahead of each attempt. -/
def stuttering (bytes : Bytes) (limit interruptions : Nat) : Reader :=
  { unread := bytes
    limit := fun _ => some limit
    interruptions := fun _ => interruptions
    pending := interruptions }

theorem Reliable.stuttering (bytes : Bytes) {limit : Nat} (hlimit : 0 < limit)
    (interruptions : Nat) : (Reader.stuttering bytes limit interruptions).Reliable := by
  refine ⟨rfl, ?_⟩
  intro _ bound hbound
  cases hbound
  exact hlimit

/-! ## Taking bytes off a reader -/

theorem atMost_le (bound : Option Nat) (n : Nat) : atMost bound n ≤ n := by
  cases bound with
  | none => exact Nat.le_refl n
  | some bound => exact Nat.min_le_right bound n

theorem share_le (reader : Reader) (wanted : Nat) : reader.share wanted ≤ wanted :=
  Nat.le_trans (atMost_le _ _) (atMost_le _ _)

/-- So many bytes were taken off the reader, and counted. -/
structure Takes (reader : Reader) (count : Nat) (after : Reader) : Prop where
  le : count ≤ reader.unread.length
  unread_eq : after.unread = reader.unread.drop count
  taken_eq : after.taken = reader.taken + count

theorem Takes.zero (reader : Reader) : reader.Takes 0 reader :=
  ⟨Nat.zero_le _, rfl, rfl⟩

theorem Takes.trans {last : Reader} {more : Nat} (hfirst : reader.Takes count after)
    (hsecond : after.Takes more last) : reader.Takes (count + more) last := by
  have hle := hsecond.le
  rw [hfirst.unread_eq, List.length_drop] at hle
  have hfits := hfirst.le
  refine ⟨by omega, ?_, ?_⟩
  · rw [hsecond.unread_eq, hfirst.unread_eq, List.drop_drop]
  · rw [hsecond.taken_eq, hfirst.taken_eq, Nat.add_assoc]

/-- No byte goes uncounted. -/
theorem Takes.taken_add_length (htakes : reader.Takes count after) :
    after.taken + after.unread.length = reader.taken + reader.unread.length := by
  have hle := htakes.le
  rw [htakes.taken_eq, htakes.unread_eq, List.length_drop]
  omega

/-- The bytes that are left tell how many were taken. -/
theorem Takes.eq_of_unread_eq {other : Nat} (htakes : reader.Takes count after)
    (hother : other ≤ reader.unread.length) (hunread : after.unread = reader.unread.drop other) :
    count = other := by
  have hlength := congrArg List.length (htakes.unread_eq.symm.trans hunread)
  have hle := htakes.le
  rw [List.length_drop, List.length_drop] at hlength
  omega

/-- A call takes the bytes off the reader that it hands over, no more of them than are wanted. -/
theorem takes_of_read {delivery : Delivery} (hread : reader.read wanted = (delivery, after)) :
    reader.Takes delivery.handedOver.length after ∧
      delivery.handedOver = reader.unread.take delivery.handedOver.length ∧
      delivery.handedOver.length ≤ wanted := by
  unfold read at hread
  split at hread
  · obtain ⟨rfl, rfl⟩ := Prod.mk.inj hread
    exact ⟨⟨Nat.zero_le _, rfl, rfl⟩, rfl, Nat.zero_le _⟩
  split at hread
  · obtain ⟨rfl, rfl⟩ := Prod.mk.inj hread
    exact ⟨⟨Nat.zero_le _, rfl, rfl⟩, rfl, Nat.zero_le _⟩
  obtain ⟨rfl, rfl⟩ := Prod.mk.inj hread
  have hlength := List.length_take (i := reader.share wanted) (l := reader.unread)
  have hshare := reader.share_le wanted
  simp only [Delivery.handedOver]
  refine ⟨⟨List.length_take_le' _ _, ?_, rfl⟩, ?_, by omega⟩
  · rw [hlength, List.drop_eq_drop_min]
  · rw [hlength, ← List.take_eq_take_min]

/-! ## Where a reader breaks -/

theorem Forthcoming.atMost_limit_pos (hreader : reader.Forthcoming) (hwanted : 0 < wanted) :
    0 < atMost (reader.limit reader.attempt) wanted := by
  cases hlimit : reader.limit reader.attempt with
  | none => exact hwanted
  | some bound => exact Nat.lt_min.mpr ⟨hreader.limit_pos _ _ hlimit, hwanted⟩

/-- Where the reader breaks while it is asked for `wanted` bytes, and why: the number of bytes
that it hands over first. -/
def breakWithin? (reader : Reader) (wanted : Nat) : Option (Nat × IoCause) :=
  match reader.failure with
  | none => none
  | some (offset, cause) =>
    if offset - reader.taken < wanted ∧ offset - reader.taken ≤ reader.unread.length then
      some (offset - reader.taken, cause)
    else none

theorem Reliable.breakWithin?_eq (hreader : reader.Reliable) :
    reader.breakWithin? wanted = none := by
  rw [breakWithin?, hreader.failure_eq]

theorem breakWithin?_zero (reader : Reader) : reader.breakWithin? 0 = none := by
  unfold breakWithin?
  split
  · rfl
  · rw [if_neg (by omega)]

/-- The reader breaks once `count` more bytes have been taken off it. -/
def BreaksAfter (reader : Reader) (count : Nat) (cause : IoCause) : Prop :=
  ∃ offset, reader.failure = some (offset, cause) ∧ offset - reader.taken = count

theorem BreaksAfter.unique {other : Nat} {cause reason : IoCause}
    (hbreaks : reader.BreaksAfter count cause) (hother : reader.BreaksAfter other reason) :
    other = count ∧ reason = cause := by
  obtain ⟨offset, hfailure, rfl⟩ := hbreaks
  obtain ⟨_, hsame, rfl⟩ := hother
  obtain ⟨rfl, rfl⟩ := Prod.mk.inj (Option.some.inj (hsame.symm.trans hfailure))
  exact ⟨rfl, rfl⟩

theorem breakWithin?_eq_some_iff {cause : IoCause} :
    reader.breakWithin? wanted = some (count, cause) ↔
      reader.BreaksAfter count cause ∧ count < wanted ∧ count ≤ reader.unread.length := by
  unfold breakWithin? BreaksAfter
  cases reader.failure with
  | none => simp
  | some failure =>
      obtain ⟨offset, broken⟩ := failure
      simp only [Option.ite_none_right_eq_some, Option.some.injEq, Prod.mk.injEq]
      constructor
      · rintro ⟨hwithin, rfl, rfl⟩
        exact ⟨⟨offset, ⟨rfl, rfl⟩, rfl⟩, hwithin⟩
      · rintro ⟨⟨_, ⟨rfl, rfl⟩, rfl⟩, hwithin⟩
        exact ⟨hwithin, rfl, rfl⟩

theorem lt_of_breakWithin? {cause : IoCause}
    (hbreak : reader.breakWithin? wanted = some (count, cause)) :
    count < wanted ∧ count ≤ reader.unread.length :=
  (breakWithin?_eq_some_iff.mp hbreak).2

/-- The reader is another state of the same source, which hands over its bytes just as freely and
breaks at the same place. -/
structure Succeeds (after reader : Reader) : Prop where
  limit_eq : after.limit = reader.limit
  failure_eq : after.failure = reader.failure

theorem Succeeds.refl (reader : Reader) : reader.Succeeds reader :=
  ⟨rfl, rfl⟩

theorem Succeeds.trans {last : Reader} (hlast : last.Succeeds after)
    (hafter : after.Succeeds reader) : last.Succeeds reader :=
  ⟨hlast.limit_eq.trans hafter.limit_eq, hlast.failure_eq.trans hafter.failure_eq⟩

theorem Succeeds.forthcoming (hafter : after.Succeeds reader) (hreader : reader.Forthcoming) :
    after.Forthcoming :=
  ⟨fun attempt bound hlimit => hreader.limit_pos attempt bound (hafter.limit_eq ▸ hlimit)⟩

theorem Succeeds.reliable (hafter : after.Succeeds reader) (hreader : reader.Reliable) :
    after.Reliable :=
  ⟨hafter.failure_eq.trans hreader.failure_eq, (hafter.forthcoming hreader.forthcoming).limit_pos⟩

theorem succeeds_of_read {delivery : Delivery} (hread : reader.read wanted = (delivery, after)) :
    after.Succeeds reader := by
  unfold read at hread
  split at hread
  · simp only [Prod.mk.injEq] at hread
    exact hread.2 ▸ ⟨rfl, rfl⟩
  · split at hread
    · simp only [Prod.mk.injEq] at hread
      exact hread.2 ▸ ⟨rfl, rfl⟩
    · simp only [deliver, Prod.mk.injEq] at hread
      exact hread.2 ▸ ⟨rfl, rfl⟩

/-- An interrupted call does not bring the reader nearer to where it breaks. -/
theorem breakWithin?_of_read_interrupted (hread : reader.read wanted = (.interrupted, after))
    (more : Nat) : after.breakWithin? more = reader.breakWithin? more := by
  unfold read at hread
  split at hread
  · simp only [Prod.mk.injEq, true_and] at hread
    subst hread
    rfl
  · split at hread <;> simp at hread

/-- A call fails at the place where the reader breaks. -/
theorem breakWithin?_of_read_failed {cause : IoCause} (hwanted : 0 < wanted)
    (hread : reader.read wanted = (.failed cause, after)) :
    reader.breakWithin? wanted = some (0, cause) ∧ after.unread = reader.unread := by
  unfold read at hread
  split at hread
  · simp at hread
  · split at hread
    · next failed hnow =>
      simp only [Prod.mk.injEq, Delivery.failed.injEq] at hread
      obtain ⟨rfl, rfl⟩ := hread
      unfold failureNow? at hnow
      split at hnow
      · next offset broken hfailure =>
        split at hnow
        · next hreached =>
          obtain rfl := Option.some.inj hnow
          simp only [breakWithin?, hfailure, Nat.sub_eq_zero_of_le hreached]
          exact ⟨if_pos ⟨hwanted, Nat.zero_le _⟩, rfl⟩
        · simp at hnow
      · simp at hnow
    · simp at hread

/-- An attempt that does not fail comes before the place where the reader breaks, and may give at
least one byte. -/
theorem Forthcoming.share_pos (hreader : reader.Forthcoming) (hwanted : 0 < wanted)
    (hnow : reader.failureNow? = none) :
    0 < reader.share wanted ∧ ∀ offset cause, reader.failure = some (offset, cause) →
      reader.taken < offset ∧ reader.share wanted ≤ offset - reader.taken := by
  have hlimited := hreader.atMost_limit_pos hwanted
  unfold failureNow? at hnow
  cases hfailure : reader.failure with
  | none =>
      rw [share, reach, hfailure]
      exact ⟨hlimited, fun _ _ hnone => nomatch hnone⟩
  | some failure =>
      obtain ⟨offset, cause⟩ := failure
      simp only [hfailure, ite_eq_right_iff, reduceCtorEq, imp_false, Nat.not_le] at hnow
      rw [share, reach, hfailure]
      refine ⟨Nat.lt_min.mpr ⟨Nat.sub_pos_of_lt hnow, hlimited⟩, ?_⟩
      intro other _ hother
      obtain ⟨rfl, -⟩ := Prod.mk.inj (Option.some.inj hother)
      exact ⟨hnow, Nat.min_le_left _ _⟩

/-- Each byte handed over brings the reader nearer to where it breaks. -/
theorem breakWithin?_deliver (hle : (reader.unread.take count).length ≤ wanted)
    (hbefore : ∀ offset cause, reader.failure = some (offset, cause) →
      reader.taken < offset ∧ count ≤ offset - reader.taken) :
    reader.breakWithin? wanted =
      ((reader.deliver count).2.breakWithin? (wanted - (reader.unread.take count).length)).map
        fun broken => (broken.1 + (reader.unread.take count).length, broken.2) := by
  cases hfailure : reader.failure with
  | none => simp only [breakWithin?, deliver, advance, hfailure, Option.map_none]
  | some failure =>
      obtain ⟨offset, cause⟩ := failure
      obtain ⟨hlt, hcount⟩ := hbefore offset cause hfailure
      have hlength := List.length_take (i := count) (l := reader.unread)
      have hrest : (reader.unread.drop count).length =
          reader.unread.length - (reader.unread.take count).length := by
        rw [List.length_drop]
        omega
      simp only [breakWithin?, deliver, advance, hfailure, hrest, Nat.sub_add_eq]
      by_cases hwithin : offset - reader.taken < wanted ∧
          offset - reader.taken ≤ reader.unread.length
      · rw [if_pos hwithin, if_pos (by omega), Option.map_some, Nat.sub_add_cancel (by omega)]
      · rw [if_neg hwithin, if_neg (by omega), Option.map_none]

/-- A delivery of a forthcoming reader is no longer than what was wanted, and empty only if
the source is exhausted ahead of where it breaks. -/
theorem Forthcoming.of_read_bytes (hreader : reader.Forthcoming) (hwanted : 0 < wanted)
    {delivered : Bytes} (hread : reader.read wanted = (.bytes delivered, after)) :
    delivered.length ≤ wanted ∧
      (delivered = [] → reader.unread = [] ∧ reader.breakWithin? wanted = none) ∧
      reader.breakWithin? wanted =
        (after.breakWithin? (wanted - delivered.length)).map fun broken =>
          (broken.1 + delivered.length, broken.2) := by
  have hle : delivered.length ≤ wanted := (takes_of_read hread).2.2
  unfold read at hread
  split at hread
  · simp at hread
  split at hread
  · simp at hread
  next hnow =>
  obtain ⟨hshare, hbefore⟩ := hreader.share_pos hwanted hnow
  simp only [Prod.mk.injEq, Delivery.bytes.injEq] at hread
  obtain ⟨rfl, rfl⟩ := hread
  refine ⟨hle, ?_, breakWithin?_deliver hle hbefore⟩
  intro hempty
  have hnil := (List.take_eq_nil_iff.mp hempty).resolve_left (Nat.ne_of_gt hshare)
  refine ⟨hnil, ?_⟩
  unfold breakWithin?
  split
  · rfl
  · next offset cause hfailure =>
    have hlt := (hbefore offset cause hfailure).1
    rw [hnil, List.length_nil, if_neg (by omega)]

/-! ## Reading in full -/

/-- Reading in full begins with one call. -/
theorem readFullFrom_eq (hwanted : wanted ≠ 0) (got : Bytes) :
    reader.readFullFrom wanted got =
      match reader.read wanted with
      | (.interrupted, after) => after.readFullFrom wanted got
      | (.failed cause, after) => (.error cause, after)
      | (.bytes [], after) => (.ok got.reverse, after)
      | (.bytes (b :: bs), after) =>
        after.readFullFrom (wanted - (b :: bs).length) ((b :: bs).reverse ++ got) := by
  rw [readFullFrom, if_neg hwanted]
  split <;> simp only [List.length_cons, *]

/-- How a call for `wanted` bytes ends that has the bytes `got` already. -/
def Outcome (reader : Reader) (wanted : Nat) (got : Bytes)
    (outcome : Except IoCause Bytes × Reader) : Prop :=
  outcome.2.Succeeds reader ∧
    match reader.breakWithin? wanted with
    | none => outcome.1 = .ok (got.reverse ++ reader.unread.take wanted) ∧
        outcome.2.unread = reader.unread.drop wanted
    | some (count, cause) => outcome.1 = .error cause ∧
        outcome.2.unread = reader.unread.drop count

/-- How a call ends shows after its first delivery already. -/
theorem Outcome.of_read_bytes (hreader : reader.Forthcoming) (hwanted : 0 < wanted)
    {delivered got : Bytes} {outcome : Except IoCause Bytes × Reader}
    (hread : reader.read wanted = (.bytes delivered, after))
    (houtcome : after.Outcome (wanted - delivered.length) (delivered.reverse ++ got) outcome) :
    reader.Outcome wanted got outcome := by
  obtain ⟨hle, -, hbreak⟩ := hreader.of_read_bytes hwanted hread
  obtain ⟨hlast, hcases⟩ := houtcome
  refine ⟨hlast.trans (succeeds_of_read hread), ?_⟩
  rw [hbreak, ← unread_of_read_bytes hread]
  cases hwithin : after.breakWithin? (wanted - delivered.length) with
  | none =>
      rw [hwithin] at hcases
      obtain ⟨hresult, hunread⟩ := hcases
      simp only [Option.map_none]
      rw [hresult, hunread, List.take_append, List.drop_append, List.take_of_length_le hle,
        List.drop_of_length_le hle]
      simp
  | some broken =>
      obtain ⟨count, cause⟩ := broken
      rw [hwithin] at hcases
      obtain ⟨hresult, hunread⟩ := hcases
      simp only [Option.map_some]
      rw [hresult, hunread, Nat.add_comm, List.drop_length_add_append]
      exact ⟨rfl, rfl⟩

/-- The induction is on the calls that the reader still takes. -/
private theorem readFullFrom_of_forthcoming (hreader : reader.Forthcoming) (got : Bytes) :
    reader.Outcome wanted got (reader.readFullFrom wanted got) := by
  fun_induction readFullFrom reader wanted got with
  | case1 reader got =>
      refine ⟨.refl reader, ?_⟩
      rw [breakWithin?_zero]
      simp
  | case2 reader wanted got _ reader' hread ih =>
      have hafter := succeeds_of_read hread
      obtain ⟨hlast, hcases⟩ := ih (hafter.forthcoming hreader)
      rw [breakWithin?_of_read_interrupted hread, unread_of_read_interrupted hread] at hcases
      exact ⟨hlast.trans hafter, hcases⟩
  | case3 reader wanted got hwanted cause reader' hread =>
      obtain ⟨hbreak, hunread⟩ := breakWithin?_of_read_failed (Nat.pos_of_ne_zero hwanted) hread
      refine ⟨succeeds_of_read hread, ?_⟩
      rw [hbreak]
      exact ⟨rfl, hunread⟩
  | case4 reader wanted got hwanted reader' hread =>
      obtain ⟨_, hexhausted, _⟩ := hreader.of_read_bytes (Nat.pos_of_ne_zero hwanted) hread
      obtain ⟨hnil, hnone⟩ := hexhausted rfl
      have hunread := unread_of_read_bytes hread
      rw [hnil, List.nil_append] at hunread
      refine ⟨succeeds_of_read hread, ?_⟩
      rw [hnone]
      simp [hnil, hunread]
  | case5 reader wanted got hwanted b bs reader' hread ih =>
      have hafter := succeeds_of_read hread
      exact .of_read_bytes hreader (Nat.pos_of_ne_zero hwanted) hread
        (ih (hafter.forthcoming hreader))

/-- What a forthcoming reader gives to a caller who wants so many bytes. -/
theorem readFull_of_forthcoming (hreader : reader.Forthcoming) (wanted : Nat) :
    reader.Outcome wanted [] (reader.readFull wanted) :=
  readFullFrom_of_forthcoming hreader []

theorem Forthcoming.of_readFull_ok (hreader : reader.Forthcoming) {bytes : Bytes}
    (hread : reader.readFull wanted = (.ok bytes, after)) :
    bytes = reader.unread.take wanted ∧ after.unread = reader.unread.drop wanted ∧
      after.Succeeds reader := by
  obtain ⟨hafter, hcases⟩ := readFull_of_forthcoming hreader wanted
  rw [hread] at hafter hcases
  cases hbreak : reader.breakWithin? wanted with
  | none =>
      rw [hbreak] at hcases
      exact ⟨Except.ok.inj hcases.1, hcases.2, hafter⟩
  | some broken =>
      rw [hbreak] at hcases
      exact nomatch hcases.1

/-- A reliable reader gives the first bytes of its source, as many as are wanted or as
there are, and leaves the others. -/
theorem readFull_of_reliable (hreader : reader.Reliable) (wanted : Nat) :
    ∃ after, reader.readFull wanted = (.ok (reader.unread.take wanted), after) ∧
      after.unread = reader.unread.drop wanted ∧ after.Reliable := by
  obtain ⟨hafter, hcases⟩ := readFull_of_forthcoming hreader.forthcoming wanted
  rw [hreader.breakWithin?_eq] at hcases
  obtain ⟨hresult, hunread⟩ := hcases
  exact ⟨_, Prod.ext hresult rfl, hunread, hafter.reliable hreader⟩

/-- The induction is on the calls that the reader still takes. -/
theorem taken_add_length_readFullFrom (reader : Reader) (wanted : Nat) (got : Bytes) :
    (reader.readFullFrom wanted got).2.taken + (reader.readFullFrom wanted got).2.unread.length =
      reader.taken + reader.unread.length := by
  fun_induction readFullFrom reader wanted got with
  | case1 reader got => rfl
  | case2 reader wanted got _ reader' hread ih => rw [ih, (takes_of_read hread).1.taken_add_length]
  | case3 reader wanted got _ cause reader' hread => exact (takes_of_read hread).1.taken_add_length
  | case4 reader wanted got _ reader' hread => exact (takes_of_read hread).1.taken_add_length
  | case5 reader wanted got _ b bs reader' hread ih =>
      rw [ih, (takes_of_read hread).1.taken_add_length]

/-- A reliable reader hands over the first of its bytes, and just these are taken. -/
theorem Reliable.takes_readFull (hreader : reader.Reliable) (wanted : Nat) :
    ∃ after, reader.readFull wanted = (.ok (reader.unread.take wanted), after) ∧
      reader.Takes (reader.unread.take wanted).length after ∧ after.Reliable := by
  obtain ⟨after, hread, hunread, hafter⟩ := readFull_of_reliable hreader wanted
  have hcount : after.taken + after.unread.length = reader.taken + reader.unread.length := by
    have hconserved := taken_add_length_readFullFrom reader wanted []
    rwa [← readFull, hread] at hconserved
  have hlength := List.length_take (i := wanted) (l := reader.unread)
  refine ⟨after, hread, ⟨List.length_take_le' _ _, ?_, ?_⟩, hafter⟩
  · rw [hunread, hlength, List.drop_eq_drop_min]
  · rw [hunread, List.length_drop] at hcount
    omega

end Reader

end VoltageCapture

import ItemTable.Proofs.Instant.Iso
import ItemTable.Proofs.Number
import ItemTable.Value.Date

/-!
# Reading stored instants back

An instant is stored without its microseconds, as text or as a count of milliseconds.
Text keeps a leap second behind second 59 and writes any other one as the next second; it is
read if its year has four digits.  A count tells no leap second from the next second, and is
read unless that second lies beyond the supported ones.
-/

namespace ItemTable

namespace Instant

/-- The last second that instants may have. -/
def lastSecond : Int := 8210266876799

/-- Whether an instant lies in a leap second after the last supported second. -/
def isLastLeap (instant : Instant) : Bool :=
  instant.isLeap && instant.seconds == lastSecond

/-- The last supported second ends a minute. -/
theorem isLastLeap_of_stray {instant : Instant} (stray : instant.isStray = true) :
    instant.isLeap = true ∧ instant.isLastLeap = false := by
  simp only [isStray, Bool.and_eq_true, bne_iff_ne] at stray
  refine ⟨stray.1, ?_⟩
  simp only [isLastLeap, Bool.and_eq_false_iff, beq_eq_false_iff_ne, lastSecond]
  omega

/-- The instant outside leap seconds that has the same count of milliseconds. -/
def ordinary (instant : Instant) : Instant :=
  if leap : instant.isLeap = true ∧ instant.isLastLeap = false then
    { seconds := instant.seconds + 1
      nanos := instant.nanos - 1000000000
      supported := by
        have supported := instant.supported
        obtain ⟨isLeap, notLast⟩ := leap
        simp [isLastLeap, isLeap, lastSecond] at notLast
        omega
      within := Nat.lt_of_le_of_lt (Nat.sub_le _ _) instant.within }
  else instant

theorem toMillis_ordinary (instant : Instant) : instant.ordinary.toMillis = instant.toMillis := by
  rw [ordinary]
  split
  · next leap =>
      have isLeap := leap.1
      simp only [Instant.isLeap, decide_eq_true_eq] at isLeap
      simp only [toMillis]
      omega
  · rfl

theorem isLeap_ordinary {instant : Instant} (notLast : instant.isLastLeap = false) :
    instant.ordinary.isLeap = false := by
  have within := instant.within
  rw [ordinary]
  split
  · simp only [isLeap, decide_eq_false_iff_not]
    omega
  · next ordinary => simpa [notLast] using ordinary

/-- A leap second that does not follow second 59 has the text of the next second. -/
theorem isoText_ordinary {instant : Instant} (stray : instant.isStray = true) :
    instant.ordinary.isoText = instant.isoText := by
  have shifted := isLastLeap_of_stray stray
  have within := instant.within
  simp only [isStray, isLeap, Bool.and_eq_true, decide_eq_true_eq, bne_iff_ne] at stray
  have sameDay : (instant.seconds + 1) / 86400 = instant.seconds / 86400 := by omega
  have nextSecond : ((instant.seconds + 1) % 86400).toNat =
      (instant.seconds % 86400).toNat + 1 := by omega
  have sameHour : ((instant.seconds % 86400).toNat + 1) / 3600 =
      (instant.seconds % 86400).toNat / 3600 := by omega
  have sameMinute : ((instant.seconds % 86400).toNat + 1) / 60 % 60 =
      (instant.seconds % 86400).toNat / 60 % 60 := by omega
  have second : ((instant.seconds % 86400).toNat + 1) % 60 =
      (instant.seconds % 86400).toNat % 60 + 1 := by omega
  have sameFraction : (instant.nanos - 1000000000) % 1000000000 =
      instant.nanos % 1000000000 := by omega
  have notLeap : ¬ 1000000000 ≤ instant.nanos - 1000000000 := by omega
  rw [ordinary, dif_pos shifted]
  simp only [isoText, isLeap, sameDay, nextSecond, sameHour, sameMinute, second, sameFraction,
    notLeap, stray.1, decide_true, decide_false, Bool.false_eq_true, if_true, if_false,
    Nat.add_zero]

theorem year_ordinary {instant : Instant} (stray : instant.isStray = true) :
    instant.ordinary.year = instant.year := by
  have shifted := isLastLeap_of_stray stray
  simp only [isStray, Bool.and_eq_true, bne_iff_ne] at stray
  have sameDay : (instant.seconds + 1) / 86400 = instant.seconds / 86400 := by omega
  rw [ordinary, dif_pos shifted, year, year]
  simp only [sameDay]

/-- Outside leap seconds, a count of milliseconds stands for the instant. -/
theorem ofMillis?_toMillis {instant : Instant} (ordinary : instant.isLeap = false) :
    ofMillis? instant.toMillis = some instant.truncated := by
  have placed := isStray_of_not_leap ordinary
  simp only [isLeap, decide_eq_false_iff_not] at ordinary
  rw [ofMillis?, ← ofParts?_self (instant.isStray_truncated.trans placed)]
  apply congrArg₂ ofParts?
  · simp only [toMillis, truncated]
    omega
  · simp only [toMillis, truncated]
    omega

theorem ofMillis?_toMillis_of_isLastLeap {instant : Instant} (last : instant.isLastLeap = true) :
    ofMillis? instant.toMillis = none := by
  simp only [isLastLeap, isLeap, Bool.and_eq_true, decide_eq_true_eq, beq_iff_eq, lastSecond]
    at last
  rw [ofMillis?, ofParts?, dif_neg]
  simp only [toMillis]
  omega

/-- The count of milliseconds of an instant is a number without rounding. -/
theorem denotes_toMillis (instant : Instant) :
    (Number.ofInt instant.toMillis).Denotes instant.toMillis := by
  apply Number.denotes_ofInt
  have supported := instant.supported
  have within := instant.within
  have limit : Nat.pow 2 53 = 9007199254740992 := rfl
  rw [limit, toMillis]
  omega

/-- Whether the stored form of an instant is read: text needs a year of four digits, and a
count needs to be one of a supported second. -/
def readsBack (instant : Instant) : DateFormat → Bool
  | .iso => decide (0 ≤ instant.year ∧ instant.year ≤ 9999)
  | .number => !instant.isLastLeap

/-- The instant that the stored form of an instant is read as. -/
def restored (instant : Instant) : DateFormat → Instant
  | .iso => if instant.isStray then instant.ordinary.truncated else instant.truncated
  | .number => instant.ordinary.truncated

theorem ofIsoText?_isoText_of_year {instant : Instant} (notBefore : 0 ≤ instant.year)
    (notAfter : instant.year ≤ 9999) :
    ofIsoText? instant.isoText = some (instant.restored .iso) := by
  cases stray : instant.isStray with
  | true =>
      have placed := isStray_of_not_leap (isLeap_ordinary (isLastLeap_of_stray stray).2)
      rw [← isoText_ordinary stray, restored, if_pos stray]
      exact ofIsoText?_isoText (by rwa [year_ordinary stray]) (by rwa [year_ordinary stray]) placed
  | false =>
      rw [restored, stray]
      exact ofIsoText?_isoText notBefore notAfter stray

theorem toInstant?_toStored {instant : Instant} {format : DateFormat} :
    (instant.toStored format).toInstant? =
      if instant.readsBack format then some (instant.restored format) else none := by
  cases format with
  | iso =>
      rw [toStored, Value.toInstant?, String.toList_ofList]
      split
      · next reads =>
          simp only [readsBack, decide_eq_true_eq] at reads
          exact ofIsoText?_isoText_of_year reads.1 reads.2
      · next unread =>
          simp only [readsBack, decide_eq_true_eq] at unread
          exact ofIsoText?_isoText_eq_none unread
  | number =>
      rw [toStored, Value.toInstant?, instant.denotes_toMillis.truncate?_eq, Option.bind_some]
      split
      · next reads =>
          have notLast : instant.isLastLeap = false := by simpa [readsBack] using reads
          rw [← toMillis_ordinary]
          exact ofMillis?_toMillis (isLeap_ordinary notLast)
      · next unread =>
          apply ofMillis?_toMillis_of_isLastLeap
          simpa [readsBack] using unread

theorem readsBack_iff {instant : Instant} {format : DateFormat} :
    instant.readsBack format = true ↔
      ∃ read, (instant.toStored format).toInstant? = some read := by
  rw [toInstant?_toStored]
  split
  · next reads => exact iff_of_true reads ⟨_, rfl⟩
  · next unread => simp [unread]

end Instant

end ItemTable

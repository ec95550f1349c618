import WantedEngine.Vfs.TarMerge
import WantedEngine.Vfs.TarTermination
/-!
# The size of a member

A member's size is written in its header, in octal digits, or in a PAX record before it. `indexLayer`
checks the header's size against the layer and steps by it, and indexes the PAX size where there is
one; both are read into 32 bits, where a larger number wraps. So all three take the number written
exactly where the header's wrapped number is that number, and a member is refused where it is more
than the layer has left.
-/
namespace WantedEngine.Vfs

open List

/-- The number in the size field of a header. -/
def octalNumber (header : Bytes) : Nat := octalValue ((field header 124 12).takeWhile isOctal)

/-- The size written for a member: that of a PAX record `size`, or else that of its header. -/
def writtenSize (header : Bytes) (pax : Option Bytes) : Nat :=
  pax.elim (octalNumber header) decimalNumber

/-- A header that is neither zero nor of a type with a meaning of its own is a member's, unless the
number in it, read into 32 bits, is more than the layer has left. -/
lemma headerKind_eq {bytes : Bytes} {off : Nat} (inside : off + tarBlockSize ≤ bytes.length)
    (block : isZeroBlock (headerAt bytes off) = false)
    (type : typeflag (headerAt bytes off) ∉ [120, 103, 75, 76]) :
    headerKind bytes off =
      if bytes.length - off - tarBlockSize < octalNumber (headerAt bytes off) % 2 ^ 32 then .ending
      else .member (octalNumber (headerAt bytes off) % 2 ^ 32) := by
  have size : headerSize (headerAt bytes off) = octalNumber (headerAt bytes off) % 2 ^ 32 :=
    parseOctal_eq _
  rw [headerKind, if_neg (Nat.not_lt.mpr inside), ← size]
  simp_all

/-- The check against the layer, the step to the next header and the index take the size written for
a member, or the member is refused, exactly where the number in its header, read into 32 bits, is
the size written or more than the layer has left. A round that fails refuses the whole image. -/
theorem member_sizes_iff (host : TarHost) (layerIdx sortedLen : Nat) (bytes : Bytes) (s next : Scan)
    (pax : Option Bytes) (inside : s.off + tarBlockSize ≤ bytes.length)
    (block : isZeroBlock (headerAt bytes s.off) = false)
    (type : typeflag (headerAt bytes s.off) ∉ [120, 103, 75, 76])
    (override : s.overrideSize = pax.elim 0 (parseDecimal 32))
    (ok : scanStep host layerIdx sortedLen bytes s = .ok next) :
    (headerKind bytes s.off = .ending ∨
      headerKind bytes s.off = .member (writtenSize (headerAt bytes s.off) pax) ∧
        next.off = nextOff s.off (writtenSize (headerAt bytes s.off) pax) ∧
        ∀ placed ∈ next.ctx.index, placed ∈ s.ctx.index ∨
          placed.entry.size = writtenSize (headerAt bytes s.off) pax) ↔
      bytes.length - s.off - tarBlockSize < octalNumber (headerAt bytes s.off) % 2 ^ 32 ∨
        writtenSize (headerAt bytes s.off) pax = octalNumber (headerAt bytes s.off) % 2 ^ 32 := by
  have is := headerKind_eq inside block type
  set written := writtenSize (headerAt bytes s.off) pax with writes
  set read := octalNumber (headerAt bytes s.off) % 2 ^ 32 with reads
  rw [is]
  by_cases large : bytes.length - s.off - tarBlockSize < read
  · simp [large]
  rw [if_neg large] at is ⊢
  simp only [large, reduceCtorEq, false_or, HeaderKind.member.injEq, eq_comm (a := read)]
  refine and_iff_left_of_imp fun same => ⟨?_, fun placed mem => ?_⟩
  · rw [scanStep, is] at ok
    exact same ▸ scanMember_off (s := { s with emptyRun := 0 }) next ok
  have size : effSize s read = written := by
    rw [effSize, override]
    cases pax with
    | none => exact (if_pos rfl).trans same.symm
    | some value =>
      have fits : decimalNumber value % 2 ^ 32 = written := by
        rw [show decimalNumber value = written from rfl, same, reads, Nat.mod_mod]
      rw [Option.elim_some, parseDecimal_eq, fits, ← same, ite_self]
  obtain ⟨kept, other⟩ | ⟨_, _, _, again, _, ⟨kept, -⟩ | ⟨draft, _, _, added⟩⟩ := scanStep_cases ok
  · exact absurd is (other read)
  · exact .inl (kept.1 ▸ mem)
  cases is.symm.trans again
  rw [added.index, mem_append, mem_singleton] at mem
  obtain old | rfl := mem
  · exact .inl old
  · exact .inr size

/-- A header and a PAX record that both say 4, and a header that says more than the layer has. -/
theorem member_sizes_four : (headerKind (paxLayer "11 size=4\n") 1024 = .ending ∨
      headerKind (paxLayer "11 size=4\n") 1024 = .member 4 ∧ 2048 = nextOff 1024 4 ∧
        ∀ placed ∈ (paxCtx 4).index, placed ∈ TarCtx.empty.index ∨ placed.entry.size = 4) ∧
      headerKind (plainHeader "a" "777777777777" 48) 0 = .ending :=
  ⟨(member_sizes_iff plainTarget 0 0 (paxLayer "11 size=4\n") ⟨.empty, 1024, 0, none, 4, false⟩
    ⟨{ paxCtx 4 with allocs := 1 }, 2048, 0, none, 0, false⟩ (some (ascii "4"))
    (by decide +kernel) (by decide +kernel) (by decide +kernel) (by decide +kernel)
    (by decide +kernel)).mpr (by decide +kernel), by decide +kernel⟩

/-- Twelve digits that write 4 GiB are read as nothing, and the member is indexed with no data; and a
PAX size of 999 is indexed where the check and the step take the 4 of the header. -/
theorem member_sizes_wrap : octalNumber (plainHeader "a" "040000000000" 48) = 2 ^ 32 ∧
      (tarFsInit plainTarget [plainHeader "a" "040000000000" 48]).toOption.map
        (fun ctx => ctx.index.map (·.entry.size)) = some [0] ∧
      headerKind (paxLayer "12 size=999\n") 1024 = .member 4 ∧
      tarFsInit plainTarget [paxLayer "12 size=999\n"] = .ok (paxCtx 999) := by
  decide +kernel

end WantedEngine.Vfs

import Provenance.Ledger.Basic
/-!
Snapshots of a ledger's dependencies, so a later compilation can replay them:
a little-endian 64-bit count, then for each dependency its byte length as a
64-bit word and its UTF-8 bytes. Restoring reads the records in order and
adds each one that differs from the compilation's own path; with no own path
it reads and drops them all. A record may not claim more than a mebibyte, and
must be UTF-8. Records added before a failure stay added.
-/

namespace Provenance.Snapshot

/-- A number as eight little-endian bytes, modulo `2 ^ 64`. -/
def le64 (n : Nat) : List UInt8 :=
  (List.range 8).map fun i => UInt8.ofNat (n / Nat.pow 256 i)

def readLe64 (bs : List UInt8) : Nat :=
  (bs.take 8).foldr (fun b acc => b.toNat + 256 * acc) 0

def record (dep : String) : List UInt8 :=
  let bytes := Text.Utf8.encode dep
  le64 bytes.length ++ bytes

def save (l : Ledger) : List UInt8 :=
  le64 l.deps.length ++ l.deps.flatMap record

/-- Reads up to `count` records from `bs`, the first having number `index`,
adding them to the ledger; `added` counts the records added so far. The
ledger is returned also when a record fails. -/
def restoreRecords (self : Option String) (index : Nat) :
    Nat → List UInt8 → Ledger → Nat → Ledger × Except LedgerError Nat
  | 0, _, l, added => (l, .ok added)
  | count + 1, bs, l, added =>
    if bs.length < 8 then (l, .error (.io .unexpectedEnd))
    else
      let len := readLe64 bs
      let rest := bs.drop 8
      if len > maxRecordLen then (l, .error (.corruptSnapshot (.tooLong index len)))
      else if rest.length < len then (l, .error (.io .unexpectedEnd))
      else
        match Text.Utf8.decode (rest.take len) with
        | .error e => (l, .error (.corruptSnapshot (.notUtf8 index e)))
        | .ok path =>
          match self with
          | some skip =>
            if path ≠ skip then
              match l.addDependency path with
              | .error e => (l, .error e)
              | .ok l' => restoreRecords self (index + 1) count (rest.drop len) l' (added + 1)
            else restoreRecords self (index + 1) count (rest.drop len) l added
          | none => restoreRecords self (index + 1) count (rest.drop len) l added

/-- Restores a snapshot into a ledger: the ledger after it, and the number of
records added or the first error. Bytes after the last record are ignored. -/
def restore (l : Ledger) (bs : List UInt8) (self : Option String) : Ledger × Except LedgerError Nat :=
  if bs.length < 8 then (l, .error (.io .unexpectedEnd))
  else restoreRecords self 0 (readLe64 bs) (bs.drop 8) l 0

end Provenance.Snapshot

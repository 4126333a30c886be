import StagingMemory.Fault
import StagingMemory.Rounding
/-!
Sizes in bytes: conversion from larger units and the text used in messages.
-/
namespace StagingMemory.Size

def wordValues : Nat := 0x10000000000000000

def scaled (count : UInt64) (unit : Nat) : Outcome UInt64 :=
  if count.toNat * unit < wordValues then .returned (UInt64.ofNat (count.toNat * unit))
  else .faulted .multiplyOverflow

def kibibytes (count : UInt64) : Outcome UInt64 := scaled count 1024

def mebibytes (count : UInt64) : Outcome UInt64 := scaled count (1024 * 1024)

/-- The units above the byte; each is 1024 of the one before. -/
inductive Scale where
  | kibi | mebi | gibi | tebi
  deriving DecidableEq, Repr

namespace Scale

def bytes : Scale → Nat
  | kibi => 1024
  | mebi => 1024 * 1024
  | gibi => 1024 * 1024 * 1024
  | tebi => 1024 * 1024 * 1024 * 1024

def symbol : Scale → String
  | kibi => "KiB"
  | mebi => "MiB"
  | gibi => "GiB"
  | tebi => "TiB"

/-- The unit in which `n` bytes are written: the largest one not above `n`, and kibibytes below
all of them. -/
def fitting (n : Nat) : Scale :=
  if n < mebi.bytes then kibi
  else if n < gibi.bytes then mebi
  else if n < tebi.bytes then gibi
  else tebi

end Scale

/-- Sizes are written from their nearest value with 53 binary digits. -/
def significantDigits : Nat := 53

def hundredths (unit : Scale) (n : Nat) : Nat :=
  roundDiv (100 * roundToBinary significantDigits n) unit.bytes

def renderHundredths (h : Nat) : String :=
  toString (h / 100) ++ "." ++ toString (h / 10 % 10) ++ toString (h % 10)

/-- The text of a size: the bytes themselves below 1024, and two decimal places of a larger unit
from there on. -/
def render (size : UInt64) : String :=
  let n := size.toNat
  if n < 1024 then toString n ++ " B"
  else
    let unit := Scale.fitting (roundToBinary significantDigits n)
    renderHundredths (hundredths unit n) ++ " " ++ unit.symbol

end StagingMemory.Size

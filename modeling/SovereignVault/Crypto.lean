/-
`sv-crypto`, with ideal primitives.

Keys are the free terms over the three ways the source makes one:
drawing it from the OS RNG, deriving it from a passphrase and a salt
(Argon2id), expanding it from another key under a context label
(HKDF-SHA256). Two terms are equal only when they were made the same way.

A sealed value records the key and the associated data it was sealed
with, and opens under exactly these. The XChaCha20 nonce is left out:
`open` reads it back from the ciphertext and nothing else depends on it.
-/
import Mathlib.Logic.Basic

namespace SovereignVault

abbrev Bytes := List UInt8

def SALT_LEN : Nat := 16

abbrev Salt := Vector UInt8 SALT_LEN

inductive CryptoError where
  | aead (detail : String)
  | kdf (detail : String)
  | encoding (detail : String)
  | random (detail : String)
  deriving DecidableEq

inductive MasterKey where
  | generate (n : Nat)
  | fromPassphrase (passphrase : String) (salt : Salt)
  | subkey (key : MasterKey) (context : String)
  deriving DecidableEq

def deriveSubkey (key : MasterKey) (context : String) : MasterKey :=
  .subkey key context

/-- An AEAD ciphertext: what was sealed, under which key and which
associated data. -/
structure Sealed (α : Type) where
  key : MasterKey
  plaintext : α
  aad : String

variable {α : Type}

def aeadSeal (key : MasterKey) (plaintext : α) (aad : String) : Sealed α :=
  ⟨key, plaintext, aad⟩

def aeadOpen (key : MasterKey) (s : Sealed α) (aad : String) : Except CryptoError α :=
  if s.key = key ∧ s.aad = aad then
    .ok s.plaintext
  else
    .error (.aead "aead::Error")

@[simp] theorem aeadOpen_seal (key : MasterKey) (a : α) (aad : String) :
    aeadOpen key (aeadSeal key a aad) aad = .ok a := by
  simp [aeadOpen, aeadSeal]

theorem aeadOpen_ok_iff {key : MasterKey} {s : Sealed α} {aad : String}
    {a : α} : aeadOpen key s aad = .ok a ↔ s = aeadSeal key a aad := by
  obtain ⟨k, p, d⟩ := s
  simp only [aeadOpen, aeadSeal, Sealed.mk.injEq]
  constructor
  · intro h
    split at h
    · next hk =>
      obtain ⟨rfl, rfl⟩ := hk
      injection h with h
      exact ⟨rfl, h, rfl⟩
    · cases h
  · rintro ⟨rfl, rfl, rfl⟩
    simp

theorem aeadOpen_seal_ne {key key' : MasterKey} (hne : key' ≠ key) (a : α) (aad aad' : String) :
    aeadOpen key (aeadSeal key' a aad) aad' = .error (.aead "aead::Error") := by
  simp [aeadOpen, aeadSeal, hne]

end SovereignVault

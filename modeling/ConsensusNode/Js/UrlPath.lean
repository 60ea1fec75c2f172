import Mathlib.Data.List.DropRight
import ConsensusNode.Platform

/-! # Paths of http(s) URLs

What the URL parser leaves of a path: it starts with a slash, no segment is `.` or `..` (also in its
percent-encoded spellings), and every code unit is one that needs no encoding; a backslash has become a
slash. Such a path is `NormalPath`.

`UrlLaws` lists what the profile module relies on: paths come out normal, a normal path is left as it
is, writing a URL and parsing it again gives the same URL, and setting the path changes nothing else. -/

namespace ConsensusNode

open Js

/-- A code unit that stands in a path as it is, slashes included. -/
def isPathUnit (c : UInt16) : Bool :=
  0x21 ≤ c && c ≤ 0x7E && !(js "\"#<>?^`\x7b\x7d\\").contains c

/-- `.` and `..`, with a dot also written `%2e`. -/
def isDotSegment (s : JsString) : Bool :=
  [js ".", js "%2e", js "..", js ".%2e", js "%2e.", js "%2e%2e"].contains (asciiLower s)

/-- A path as the URL parser leaves it. -/
def NormalPath : JsString → Bool
  | [] => false
  | c :: r => c == unit '/' && r.all isPathUnit && (r.splitOn (unit '/')).all fun s => !isDotSegment s

/-- `s.replace(/\/+$/, '')`. -/
def stripSlashes (s : JsString) : JsString := s.rdropWhile (· == unit '/')

/-- The base that allowed paths are parsed against. -/
def PROFILE_BASE : JsString := js "http://profile.local"

def isHttp (protocol : JsString) : Bool := protocol == js "http:" || protocol == js "https:"

/-- An http(s) URL object: parsed, and perhaps given another path. -/
inductive HttpUrl (p : Platform) : Url → Prop
  | parsed {s : JsString} {u : Url} : p.parseUrl s = some u → isHttp u.protocol = true → HttpUrl p u
  | setPathname {u : Url} (s : JsString) : HttpUrl p u → HttpUrl p (p.setPathname u s)

/-- The laws of the URL standard that the profile module relies on. -/
structure UrlLaws (p : Platform) : Prop where
  normal : ∀ {u}, HttpUrl p u → NormalPath u.pathname = true
  reparse : ∀ {u}, HttpUrl p u → p.parseUrl u.href = some u
  setPathname_normal : ∀ {u s}, HttpUrl p u → NormalPath s = true → (p.setPathname u s).pathname = s
  setPathname_nil : ∀ {u}, HttpUrl p u → (p.setPathname u []).pathname = [unit '/']
  setPathname_self : ∀ {u}, HttpUrl p u → p.setPathname u u.pathname = u
  setPathname_frame : ∀ {u} s, HttpUrl p u → (p.setPathname u s).protocol = u.protocol ∧
    (p.setPathname u s).username = u.username ∧ (p.setPathname u s).password = u.password ∧
    (p.setPathname u s).search = u.search ∧ (p.setPathname u s).hash = u.hash
  base_normal : ∀ {s u}, startsWith s [unit '/'] = true → p.parseUrlBase s PROFILE_BASE = some u →
    NormalPath u.pathname = true
  base_fixed : ∀ {s}, NormalPath s = true → startsWith s (js "//") = false →
    ∃ u, p.parseUrlBase s PROFILE_BASE = some u ∧ u.origin = PROFILE_BASE ∧ u.search = [] ∧
      u.hash = [] ∧ u.pathname = s

/-! ### Trailing slashes -/

theorem normalPath_cons {c : UInt16} {r : JsString} : NormalPath (c :: r) = true ↔
    c = unit '/' ∧ (∀ x ∈ r, isPathUnit x = true) ∧
      ∀ s ∈ r.splitOn (unit '/'), isDotSegment s = false := by
  simp [NormalPath, and_assoc]

theorem normalPath_head {s : JsString} (h : NormalPath s = true) : startsWith s [unit '/'] = true := by
  cases s with
  | nil => cases h
  | cons c r =>
    rw [(normalPath_cons.mp h).1]
    rfl

theorem normalPath_backslash {s : JsString} (h : NormalPath s = true) : unit '\\' ∉ s := by
  cases s with
  | nil => simp
  | cons c r =>
    obtain ⟨rfl, hr, -⟩ := normalPath_cons.mp h
    intro hm
    rcases List.mem_cons.mp hm with hm | hm
    · exact absurd hm (by decide)
    · exact absurd (hr _ hm) (by decide)

/-- A slash at the end can be taken away, unless it is the only one. -/
theorem normalPath_dropSlash {s : JsString} (hs : s ≠ []) (h : NormalPath (s ++ [unit '/']) = true) :
    NormalPath s = true := by
  obtain ⟨c, r, rfl⟩ := List.exists_cons_of_ne_nil hs
  rw [List.cons_append, normalPath_cons] at h
  obtain ⟨hc, hr, hseg⟩ := h
  refine normalPath_cons.mpr ⟨hc, fun x hx => hr x (by simp [hx]), fun x hx => hseg x ?_⟩
  rw [List.splitOn_append_cons_self]
  simp [hx]

theorem stripSlashes_concat (s : JsString) (c : UInt16) :
    stripSlashes (s ++ [c]) = if c = unit '/' then stripSlashes s else s ++ [c] := by
  unfold stripSlashes
  rw [List.rdropWhile_concat]
  simp

theorem normalPath_stripSlashes {s : JsString} (h : NormalPath s = true)
    (hne : stripSlashes s ≠ []) : NormalPath (stripSlashes s) = true := by
  induction s using List.reverseRecOn with
  | nil => cases h
  | append_singleton s c ih =>
    rw [stripSlashes_concat] at hne ⊢
    split_ifs at hne ⊢ with hc
    · subst hc
      refine ih (normalPath_dropSlash ?_ h) hne
      rintro rfl
      exact hne rfl
    · exact h

theorem stripSlashes_idem (s : JsString) : stripSlashes (stripSlashes s) = stripSlashes s :=
  List.rdropWhile_idempotent _ s

theorem stripSlashes_ne_slash (s : JsString) : stripSlashes s ≠ [unit '/'] := by
  intro h
  have := stripSlashes_idem s
  rw [h] at this
  exact absurd this (by decide)

end ConsensusNode

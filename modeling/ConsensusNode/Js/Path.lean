import ConsensusNode.Js.Text
import ConsensusNode.Lib.PathSteps

/-! # Paths

`path.normalize`, `path.join` and the segments of `path.resolve` on POSIX systems. A segment is a move in the
tree of directories: an empty one and `.` stay, `..` goes up.

* `resolveSegments_joinPath`: a joined path resolves as its second part does from its first one.
* `splitOn_append`: a text without a slash goes to the last segment. -/

namespace ConsensusNode.Js

open Lib.PathSteps

/-! ### Segments -/

/-- The segments of a path that `path.resolve` keeps. -/
def segmentStep (acc : List JsString) (s : JsString) : List JsString :=
  if s = [] ∨ s = js "." then acc else if s = js ".." then acc.dropLast else acc ++ [s]

/-- A segment of a resolved path. -/
def Segment (s : JsString) : Prop := unit '/' ∉ s ∧ s ≠ [] ∧ s ≠ js "." ∧ s ≠ js ".."

/-- A segment as a move. -/
def segmentMove (s : JsString) : Move JsString :=
  if s = [] ∨ s = js "." then .stay else if s = js ".." then .up else .down s

theorem segmentStep_eq_walk (acc : List JsString) (s : JsString) : segmentStep acc s = walk acc (segmentMove s) := by
  unfold segmentStep segmentMove
  split_ifs <;> rfl

theorem foldl_segmentStep (acc l : List JsString) :
    l.foldl segmentStep acc = (l.map segmentMove).foldl walk acc := by
  rw [List.foldl_map]
  exact congrFun (congrFun (congrArg List.foldl (funext fun _ => funext fun _ => segmentStep_eq_walk _ _)) _) _

theorem segments_foldl {l acc : List JsString} (hl : ∀ s ∈ l, unit '/' ∉ s) (hacc : ∀ s ∈ acc, Segment s) :
    ∀ s ∈ l.foldl segmentStep acc, Segment s := by
  induction l generalizing acc with
  | nil => exact hacc
  | cons a l ih =>
    refine ih (fun s hs => hl s (List.mem_cons_of_mem _ hs)) ?_
    unfold segmentStep
    split_ifs with hempty hup
    · exact hacc
    · exact fun s hs => hacc s (List.mem_of_mem_dropLast hs)
    · intro s hs
      rcases List.mem_append.mp hs with hs | hs
      · exact hacc s hs
      · rw [List.mem_singleton.mp hs]
        exact ⟨hl a List.mem_cons_self, fun h => hempty (.inl h), fun h => hempty (.inr h), hup⟩

theorem segmentStep_segment {s : JsString} (h : Segment s) (acc : List JsString) :
    segmentStep acc s = acc ++ [s] := by
  obtain ⟨-, hempty, hdot, hup⟩ := h
  unfold segmentStep
  rw [if_neg (not_or.mpr ⟨hempty, hdot⟩), if_neg hup]

theorem foldl_segments {l acc : List JsString} (hl : ∀ s ∈ l, Segment s) :
    l.foldl segmentStep acc = acc ++ l := by
  induction l generalizing acc with
  | nil => simp
  | cons a l ih =>
    rw [List.foldl_cons, segmentStep_segment (hl a List.mem_cons_self), ih fun s hs =>
      hl s (List.mem_cons_of_mem _ hs)]
    simp

theorem foldl_ups (acc : List JsString) (n : ℕ) :
    (List.replicate n (js "..")).foldl segmentStep acc = acc.take (acc.length - n) := by
  induction n generalizing acc with
  | zero => simp
  | succ n ih =>
    have hup : segmentStep acc (js "..") = acc.dropLast := if_neg (by decide)
    rw [List.replicate_succ, List.foldl_cons, hup, ih, List.dropLast_eq_take, List.take_take, List.length_take]
    congr 1
    omega

/-- The pieces of a text of segments. -/
theorem splitOn_join {l : List JsString} (hl : ∀ s ∈ l, unit '/' ∉ s) (hne : l ≠ []) :
    (join (unit '/') l).splitOn (unit '/') = l := List.splitOn_intercalate _ hl hne

theorem join_concat (sep : UInt16) (a : JsString) : ∀ {l : List JsString}, l ≠ [] →
    join sep (l ++ [a]) = join sep l ++ sep :: a
  | [], h => absurd rfl h
  | [b], _ => by simp [join, List.intercalate]
  | b :: c :: l, _ => by
    have hrest := join_concat sep a (List.cons_ne_nil c l)
    have hcons : ∀ l, join sep (b :: c :: l) = b ++ sep :: join sep (c :: l) := by
      intro l
      simp [join, List.intercalate]
    rw [hcons, List.cons_append, List.cons_append, hcons, ← List.cons_append, hrest, List.append_assoc]
    rfl

/-- A text without a slash goes to the last piece. -/
theorem splitOn_append (sep : UInt16) {t : JsString} (ht : sep ∉ t) : ∀ s : JsString,
    ∃ l w, s.splitOn sep = l ++ [w] ∧ (s ++ t).splitOn sep = l ++ [w ++ t]
  | [] => by
    refine ⟨[], [], List.splitOn_nil .., ?_⟩
    have hwhole : ([sep].intercalate [t]).splitOn sep = [t] :=
      List.splitOn_intercalate sep (by simpa using ht) (List.cons_ne_nil _ _)
    simpa using hwhole
  | c :: s => by
    obtain ⟨l, w, hs, hst⟩ := splitOn_append sep ht s
    rw [List.cons_append, List.splitOn_cons_eq_if_modifyHead, List.splitOn_cons_eq_if_modifyHead, hs, hst]
    split_ifs
    · exact ⟨[] :: l, w, rfl, rfl⟩
    · rcases l with _ | ⟨a, l⟩
      · exact ⟨[], c :: w, rfl, rfl⟩
      · exact ⟨(c :: a) :: l, w, rfl, rfl⟩

theorem startsWith_append {s : JsString} (h : s ≠ []) (t : JsString) (c : UInt16) :
    startsWith (s ++ t) [c] = startsWith s [c] := by
  rcases s with _ | ⟨d, s⟩
  · exact absurd rfl h
  · simp [startsWith, List.isPrefixOf]

/-! ### Normalization -/

/-- The segments of a normalized path. A relative path keeps the steps up that it starts with. -/
def normalSegments (path : JsString) : List JsString :=
  let segments := path.splitOn (unit '/')
  if startsWith path [unit '/'] then segments.foldl segmentStep []
  else
    let (up, names) := climbs (segments.map segmentMove)
    List.replicate up (js "..") ++ names

/-- The slash that a path ends with. -/
def trailingSlash (path : JsString) : JsString := if path.getLast? = some (unit '/') then [unit '/'] else []

/-- `path.normalize(path)`. -/
def normalizePath (path : JsString) : JsString :=
  let segments := normalSegments path
  if startsWith path [unit '/'] then
    if segments = [] then [unit '/'] else unit '/' :: join (unit '/') segments ++ trailingSlash path
  else (if segments = [] then js "." else join (unit '/') segments) ++ trailingSlash path

/-- `path.join(a, b)`. -/
def joinPath (a b : JsString) : JsString :=
  normalizePath (if a = [] then b else if b = [] then a else a ++ unit '/' :: b)

/-- The segments of `path.resolve(path)` in the working directory `cwd`. -/
def resolveSegments (cwd path : JsString) : List JsString :=
  let whole := if startsWith path [unit '/'] then path else cwd ++ unit '/' :: path
  (whole.splitOn (unit '/')).foldl segmentStep []

theorem resolveSegments_absolute {path : JsString} (h : startsWith path [unit '/'] = true) (cwd : JsString) :
    resolveSegments cwd path = (path.splitOn (unit '/')).foldl segmentStep [] := by
  unfold resolveSegments
  rw [if_pos h]

theorem resolveSegments_relative {path : JsString} (h : startsWith path [unit '/'] = false) (cwd : JsString) :
    resolveSegments cwd path =
      (path.splitOn (unit '/')).foldl segmentStep ((cwd.splitOn (unit '/')).foldl segmentStep []) := by
  unfold resolveSegments
  dsimp only
  rw [if_neg (by simp [h]), List.splitOn_append_cons_self, List.foldl_append]

theorem segment_resolveSegments {cwd path : JsString} : ∀ s ∈ resolveSegments cwd path, Segment s :=
  segments_foldl (fun _ hs => not_mem_of_mem_splitOn hs) (by simp)

/-- A resolved path leads to its own segments. -/
theorem resolveSegments_resolved {l : List JsString} (hl : ∀ s ∈ l, Segment s) (cwd : JsString) :
    resolveSegments cwd (unit '/' :: join (unit '/') l) = l := by
  rw [resolveSegments_absolute (by simp [startsWith, List.isPrefixOf]), ← List.nil_append (unit '/' :: _),
    List.splitOn_append_cons_self, List.foldl_append]
  by_cases hnil : l = []
  · rw [hnil]
    rfl
  · rw [splitOn_join (fun s hs => (hl s hs).1) hnil, foldl_segments hl]
    rfl

/-- A slash at the end adds an empty segment. -/
theorem foldl_trailingSlash (text path : JsString) (acc : List JsString) :
    ((text ++ trailingSlash path).splitOn (unit '/')).foldl segmentStep acc =
      (text.splitOn (unit '/')).foldl segmentStep acc := by
  unfold trailingSlash
  split_ifs
  · rw [List.splitOn_append_cons_self, List.foldl_append, List.splitOn_nil]
    rfl
  · rw [List.append_nil]

theorem segment_climbs {path : JsString} {s : JsString}
    (h : s ∈ (climbs ((path.splitOn (unit '/')).map segmentMove)).2) : Segment s := by
  obtain ⟨t, ht, hmove⟩ := List.mem_map.mp (mem_climbs h)
  unfold segmentMove at hmove
  split_ifs at hmove with hempty hup
  cases hmove
  exact ⟨not_mem_of_mem_splitOn ht, fun h => hempty (.inl h), fun h => hempty (.inr h), hup⟩

/-- The segments of a relative path that is normalized. -/
theorem normalSegments_relative {path : JsString} (h : startsWith path [unit '/'] = false) :
    ∀ s ∈ normalSegments path, unit '/' ∉ s ∧ s ≠ [] := by
  intro s hs
  unfold normalSegments at hs
  rw [if_neg (by simp [h])] at hs
  rcases List.mem_append.mp hs with hs | hs
  · rw [List.eq_of_mem_replicate hs]
    decide
  · exact ⟨(segment_climbs hs).1, (segment_climbs hs).2.1⟩

/-- A relative path leads where it leads normalized. -/
theorem foldl_normalizePath {path : JsString} (h : startsWith path [unit '/'] = false) (acc : List JsString) :
    ((normalizePath path).splitOn (unit '/')).foldl segmentStep acc =
      (path.splitOn (unit '/')).foldl segmentStep acc := by
  have hnormal : (normalSegments path).foldl segmentStep acc = (path.splitOn (unit '/')).foldl segmentStep acc := by
    unfold normalSegments
    rw [if_neg (by simp [h]), foldl_segmentStep acc (path.splitOn (unit '/')), foldl_walk, climbed]
    dsimp only
    rw [List.foldl_append, foldl_ups, foldl_segments fun s hs => segment_climbs hs]
  rw [← hnormal]
  unfold normalizePath
  dsimp only
  rw [if_neg (by simp [h]), foldl_trailingSlash]
  split_ifs with hempty
  · rw [hempty]
    rfl
  · rw [splitOn_join (fun s hs => (normalSegments_relative h s hs).1) hempty]

theorem startsWith_normalizePath (path : JsString) :
    startsWith (normalizePath path) [unit '/'] = startsWith path [unit '/'] := by
  rcases h : startsWith path [unit '/'] with _ | _
  · unfold normalizePath
    dsimp only
    rw [if_neg (by simp [h])]
    rcases hsegments : normalSegments path with _ | ⟨a, l⟩
    · rfl
    · have hproper := normalSegments_relative h a (by rw [hsegments]; exact List.mem_cons_self)
      obtain ⟨r, hr⟩ : ∃ r, join (unit '/') (a :: l) = a ++ r := by
        rcases l with _ | ⟨b, l⟩
        · exact ⟨[], by simp [join]⟩
        · exact ⟨unit '/' :: join (unit '/') (b :: l), by simp [join, List.intercalate]⟩
      rw [if_neg (List.cons_ne_nil a l), hr, List.append_assoc, startsWith_append hproper.2]
      rcases a with _ | ⟨c, a⟩
      · exact absurd rfl hproper.2
      · have hne : unit '/' ≠ c := fun heq => hproper.1 (heq ▸ List.mem_cons_self)
        simpa [startsWith, List.isPrefixOf] using hne
  · unfold normalizePath
    dsimp only
    rw [if_pos h]
    split_ifs
    · rfl
    · rfl

/-- **A normalized path resolves as the path does.** -/
theorem resolveSegments_normalizePath (cwd path : JsString) :
    resolveSegments cwd (normalizePath path) = resolveSegments cwd path := by
  rcases h : startsWith path [unit '/'] with _ | _
  · rw [resolveSegments_relative ((startsWith_normalizePath path).trans h), resolveSegments_relative h,
      foldl_normalizePath h]
  · rw [resolveSegments_absolute ((startsWith_normalizePath path).trans h), resolveSegments_absolute h]
    have hsegments : normalSegments path = (path.splitOn (unit '/')).foldl segmentStep [] := by
      unfold normalSegments
      rw [if_pos h]
    have hproper : ∀ s ∈ normalSegments path, Segment s := by
      rw [hsegments]
      exact segments_foldl (fun _ hs => not_mem_of_mem_splitOn hs) (by simp)
    rw [← hsegments]
    unfold normalizePath
    dsimp only
    rw [if_pos h]
    split_ifs with hempty
    · rw [hempty]
      rfl
    · rw [foldl_trailingSlash, ← List.nil_append (unit '/' :: _), List.splitOn_append_cons_self,
        splitOn_join (fun s hs => (hproper s hs).1) hempty, List.foldl_append, foldl_segments hproper]
      rfl

/-- **Where a joined path leads.** -/
theorem resolveSegments_joinPath {b : JsString} (h : startsWith b [unit '/'] = false) (cwd a : JsString) :
    resolveSegments cwd (joinPath a b) = (b.splitOn (unit '/')).foldl segmentStep (resolveSegments cwd a) := by
  unfold joinPath
  rw [resolveSegments_normalizePath]
  split_ifs with ha hb
  · rw [ha, resolveSegments_relative h, resolveSegments_relative rfl, List.splitOn_nil]
    rfl
  · rw [hb, List.splitOn_nil]
    rfl
  · have hwhole := startsWith_append ha (unit '/' :: b) (unit '/')
    rcases hslash : startsWith a [unit '/'] with _ | _
    · rw [resolveSegments_relative (hwhole.trans hslash), resolveSegments_relative hslash,
        List.splitOn_append_cons_self, List.foldl_append]
    · rw [resolveSegments_absolute (hwhole.trans hslash), resolveSegments_absolute hslash,
        List.splitOn_append_cons_self, List.foldl_append]

end ConsensusNode.Js

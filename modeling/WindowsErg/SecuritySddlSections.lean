import WindowsErg.SecuritySddl

/-! The section splitter on texts made of marked sections. -/
namespace WindowsErg.Security
open List TextScan ByteCodec Outcome

def sectionsText (secs : List (Char × Text)) : Text :=
  secs.flatMap fun p => p.1 :: ':' :: p.2

structure WellSectioned (secs : List (Char × Text)) : Prop where
  markers : ∀ p ∈ secs, p.1 ∈ ['O', 'G', 'D', 'S']
  nodup : (secs.map Prod.fst).Nodup
  colon : ∀ p ∈ secs, ':' ∉ p.2

theorem WellSectioned.tail {p : Char × Text} {secs : List (Char × Text)}
    (h : WellSectioned (p :: secs)) : WellSectioned secs :=
  ⟨fun q hq => h.markers q (by simp [hq]), (nodup_cons.mp h.nodup).2,
    fun q hq => h.colon q (by simp [hq])⟩

theorem WellSectioned.marker_ne_colon {secs : List (Char × Text)} (h : WellSectioned secs)
    {p : Char × Text} (hp : p ∈ secs) : p.1 ≠ ':' := by
  intro he
  have hm : ':' ∈ ['O', 'G', 'D', 'S'] := he ▸ h.markers p hp
  exact absurd hm (by decide)

theorem sectionsText_head (secs : List (Char × Text)) (h : WellSectioned secs) :
    (sectionsText secs).head? ≠ some ':' := by
  cases secs with
  | nil => simp [sectionsText]
  | cons p secs => simpa [sectionsText] using h.marker_ne_colon (p := p) (by simp)

theorem find_marker_none (secs : List (Char × Text)) (h : WellSectioned secs) (m : Char)
    (hm : m ≠ ':') (hn : ∀ p ∈ secs, p.1 ≠ m) : find (marker m) (sectionsText secs) = none := by
  induction secs with
  | nil => simp [sectionsText, find, marker]
  | cons p secs ih =>
    have hs : sectionsText (p :: secs) = p.1 :: ':' :: (p.2 ++ sectionsText secs) := by
      simp [sectionsText]
    rw [hs, marker, find_pair_miss _ _ _ _ (hn p (by simp)) hm,
      find_pair_skip _ _ _ _ (h.colon p (by simp)) (sectionsText_head secs h.tail)]
    have hi := ih h.tail (fun q hq => hn q (by simp [hq]))
    rw [marker] at hi
    simp [hi]

theorem find_marker_some (pre post : List (Char × Text)) (m : Char) (t : Text)
    (h : WellSectioned (pre ++ (m, t) :: post)) :
    find (marker m) (sectionsText (pre ++ (m, t) :: post)) = some (sectionsText pre).length := by
  induction pre with
  | nil =>
    simp only [nil_append, sectionsText, flatMap_cons, flatMap_nil, length_nil]
    exact find_pair_hit m ':' _
  | cons p pre ih =>
    have hs : sectionsText (p :: pre ++ (m, t) :: post) =
        p.1 :: ':' :: (p.2 ++ sectionsText (pre ++ (m, t) :: post)) := by
      simp [sectionsText]
    have hpm : p.1 ≠ m := by
      intro he
      have hnd := (nodup_cons.mp h.nodup).1
      exact hnd (by simp [he])
    have hm : m ≠ ':' := h.marker_ne_colon (p := (m, t)) (by simp)
    have ht : WellSectioned (pre ++ (m, t) :: post) := h.tail
    have hi := ih ht
    rw [marker] at hi
    rw [hs, marker, find_pair_miss _ _ _ _ hpm hm,
      find_pair_skip _ _ _ _ (h.colon p (by simp)) (sectionsText_head _ ht), hi]
    simp only [Option.map_some, Option.some.injEq]
    simp only [sectionsText, flatMap_cons, length_append, length_cons]
    omega

theorem foldl_min_eq (f : Char → Option ℕ) (start L : ℕ) (cs : List Char) (init : ℕ)
    (hge : ∀ c ∈ cs, ∀ p, f c = some p → L ≤ start+p) (hinit : L ≤ init)
    (hhit : init = L ∨ ∃ c ∈ cs, ∃ p, f c = some p ∧ start+p = L) :
    cs.foldl (fun stop c => clip start stop (f c)) init = L := by
  induction cs generalizing init with
  | nil =>
    rcases hhit with h | ⟨c, hc, -⟩
    · exact h
    · simp at hc
  | cons c cs ih =>
    have hge' : ∀ d ∈ cs, ∀ p, f d = some p → L ≤ start+p := fun d hd => hge d (by simp [hd])
    rw [foldl_cons]
    cases hc : f c with
    | none =>
      apply ih init hge' hinit
      rcases hhit with h | ⟨d, hd, p, hp, he⟩
      · exact Or.inl h
      · rcases mem_cons.mp hd with rfl | hd
        · cases hc.symm.trans hp
        · exact Or.inr ⟨d, hd, p, hp, he⟩
    | some q =>
      have hq := hge c (by simp) q hc
      apply ih (min init (start+q)) hge' (le_min hinit hq)
      rcases hhit with h | ⟨d, hd, p, hp, he⟩
      · exact Or.inl (by omega)
      · rcases mem_cons.mp hd with rfl | hd
        · rw [hc, Option.some.injEq] at hp
          exact Or.inl (by omega)
        · exact Or.inr ⟨d, hd, p, hp, he⟩

theorem WellSectioned.after {pre post : List (Char × Text)} {m : Char} {t : Text}
    (h : WellSectioned (pre ++ (m, t) :: post)) :
    WellSectioned post ∧ m ∉ post.map Prod.fst := by
  have hn := h.nodup
  rw [map_append, map_cons] at hn
  have hcons := nodup_cons.mp (nodup_append.mp hn).2.1
  exact ⟨⟨fun q hq => h.markers q (by simp [hq]), hcons.2, fun q hq => h.colon q (by simp [hq])⟩,
    hcons.1⟩

theorem foldl_clip_markers (m : Char) (t : Text) (post : List (Char × Text)) (start : ℕ)
    (hpost : WellSectioned post) (hm : m ∉ post.map Prod.fst) (ht : ':' ∉ t) :
    (['O', 'G', 'D', 'S'].filter (· ≠ m)).foldl (fun stop candidate =>
        clip start stop (find (marker candidate) (t ++ sectionsText post)))
      (start+t.length+(sectionsText post).length) = start+t.length := by
  have hskip (c : Char) : find (marker c) (t ++ sectionsText post) =
      (find (marker c) (sectionsText post)).map (· + t.length) :=
    find_pair_skip c ':' t _ ht (sectionsText_head post hpost)
  apply foldl_min_eq (fun c => find (marker c) (t ++ sectionsText post))
  · intro c _ p hp
    rw [hskip, Option.map_eq_some_iff] at hp
    obtain ⟨q, -, rfl⟩ := hp
    omega
  · omega
  · match post with
    | [] =>
      left
      simp [sectionsText]
    | (c, u) :: post =>
      right
      have hcm : c ≠ m := fun he => hm (by simp [he])
      refine ⟨c, ?_, t.length, ?_, rfl⟩
      · exact mem_filter.mpr ⟨hpost.markers (c, u) (by simp), by simpa using hcm⟩
      · have hh := find_marker_some [] post c u hpost
        simp only [nil_append] at hh
        rw [hskip, hh]
        simp [sectionsText]

theorem extractSddlSection_some (pre post : List (Char × Text)) (m : Char) (t : Text)
    (h : WellSectioned (pre ++ (m, t) :: post)) :
    extractSddlSection (sectionsText (pre ++ (m, t) :: post)) m = some (trim t) := by
  obtain ⟨hpost, hm⟩ := h.after
  let start := (sectionsText pre).length+2
  have hsddl : sectionsText (pre ++ (m, t) :: post) =
      sectionsText pre ++ m :: ':' :: (t ++ sectionsText post) := by
    simp [sectionsText]
  have hdrop : (sectionsText (pre ++ (m, t) :: post)).drop start = t ++ sectionsText post := by
    rw [hsddl, ← drop_drop, drop_left]
    rfl
  have hlen : (sectionsText (pre ++ (m, t) :: post)).length =
      start+t.length+(sectionsText post).length := by
    rw [hsddl]
    simp only [length_append, length_cons, start]
    omega
  unfold extractSddlSection
  rw [find_marker_some pre post m t h]
  dsimp only
  change some (trim ((List.take _ _).drop start)) = _
  rw [hdrop, hlen, foldl_clip_markers m t post start hpost hm (h.colon (m, t) (by simp)),
    drop_take, hdrop]
  simp

end WindowsErg.Security

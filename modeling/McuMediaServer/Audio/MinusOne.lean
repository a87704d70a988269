import McuMediaServer.Audio.Mixer

/-!
# What each participant hears

A sample that a participant is handed is the sum of those of the other members of its sidebar, and
of what the clearing has left behind the samples of the members, in the register that has the last
of them. A round is right exactly when these add up to nothing.
-/

namespace McuMediaServer

namespace Audio

open Blocks

/-! ## Samples of a buffer -/

namespace Buffer

@[simp]
theorem get_silence (k : Nat) : silence.get k = 0 := by
  by_cases hk : k < mixerBufferSize
  · rw [get, silence, List.getD_eq_getElem _ _ (by rwa [List.length_replicate]),
      List.getElem_replicate]
  · rw [get, silence, List.getD_eq_default _ _ (by rw [List.length_replicate]; omega)]

theorem registers_le {len : Nat} (hlen : len ≤ mixerBufferSize) :
    8 * registers len ≤ mixerBufferSize := by
  simp only [registers, mixerBufferSize] at hlen ⊢
  omega

theorem get_combine (f : SWORD → SWORD → SWORD) (d s : Buffer) {len : Nat}
    (hlen : len ≤ mixerBufferSize) (k : Nat) :
    (d.combine f s len hlen).get k =
      if k < 8 * registers len then f (d.get k) (s.get k) else d.get k := by
  have hd : 8 * registers len ≤ d.samples.length := by
    rw [d.length_samples]
    exact registers_le hlen
  have hs : 8 * registers len ≤ s.samples.length := by
    rw [s.length_samples]
    exact registers_le hlen
  split_ifs with hk
  · exact getD_zipBlocks_of_lt hd hs hk
  · exact getD_zipBlocks_of_le hd hs (Nat.le_of_not_lt hk)

theorem get_copy (buffer : Buffer) {start : Nat} {samples : List SWORD}
    (hfits : start + samples.length ≤ mixerBufferSize) (k : Nat) :
    (buffer.copy start samples hfits).get k =
      if k < start then buffer.get k
      else if k < start + samples.length then samples.getD (k - start) 0 else buffer.get k := by
  have hlength : (buffer.samples.take start).length = start := by
    rw [List.length_take, buffer.length_samples]
    omega
  simp only [get, copy]
  split_ifs with hstart hend
  · rw [List.append_assoc, List.getD_append _ _ _ _ (by omega), List.getD_eq_getElem?_getD,
      List.getElem?_take_of_lt hstart, ← List.getD_eq_getElem?_getD]
  · rw [List.getD_append _ _ _ _ (by rw [List.length_append]; omega),
      List.getD_append_right _ _ _ _ (by omega), hlength]
  · rw [List.getD_append_right _ _ _ _ (by rw [List.length_append]; omega), List.length_append,
      hlength, List.getD_eq_getElem?_getD, List.getElem?_drop, ← List.getD_eq_getElem?_getD]
    congr 1
    omega

/-- What the clearing leaves of a sample. -/
def cleared (start bytes k : Nat) (sample : SWORD) : SWORD :=
  if k < start then
    sample
  else if k < start + bytes / 2 then
    0
  else if k = start + bytes / 2 ∧ bytes % 2 = 1 then
    sample &&& 0xFF00
  else
    sample

theorem get_clear (buffer : Buffer) (start bytes : Nat) {k : Nat} (hk : k < mixerBufferSize) :
    (buffer.clear start bytes).get k = cleared start bytes k (buffer.get k) := by
  have hlen : k < buffer.samples.length := by rwa [buffer.length_samples]
  rw [get, clear, List.getD_eq_getElem _ _ (by rwa [List.length_mapIdx]), List.getElem_mapIdx, get,
    List.getD_eq_getElem _ _ hlen]
  rfl

end Buffer

/-! ## What a participant adds -/

namespace AudioSource

variable (audio : AudioSource) {n : Nat} (hnum : n ≤ mixerBufferSize)

/-- The sample of a round, nothing behind the samples that have arrived. -/
def sample (n k : Nat) : SWORD :=
  (audio.fifo.take n).getD k 0

/-- What is left in the register of the last sample, behind it: the half of the buffer behind the
samples that the clearing does not reach. -/
def residue (n k : Nat) : SWORD :=
  let len := (audio.fifo.take n).length
  if k < len ∨ 8 * registers len ≤ k then
    0
  else
    Buffer.cleared len (mixerBufferSize - len) k (audio.buffer.get k)

theorem len_getSamples : (audio.getSamples n hnum).len = (audio.fifo.take n).length := rfl

theorem get_getSamples {k : Nat} (hk : k < mixerBufferSize) :
    (if k < 8 * registers (audio.getSamples n hnum).len then (audio.getSamples n hnum).buffer.get k
      else 0) = audio.sample n k + audio.residue n k := by
  have hfits : 0 + (audio.fifo.take n).length ≤ mixerBufferSize := by
    rw [List.length_take]
    omega
  rw [len_getSamples]
  have hbuffer : (audio.getSamples n hnum).buffer.get k =
      Buffer.cleared (audio.fifo.take n).length (mixerBufferSize - (audio.fifo.take n).length) k
        ((audio.buffer.copy 0 (audio.fifo.take n) hfits).get k) :=
    Buffer.get_clear _ _ _ hk
  rw [hbuffer, Buffer.get_copy, residue, sample]
  have hregisters : (audio.fifo.take n).length ≤ 8 * registers (audio.fifo.take n).length := by
    rw [registers]
    omega
  by_cases hlen : k < (audio.fifo.take n).length
  · rw [if_pos (by omega), if_neg (Nat.not_lt_zero k), if_pos (by omega), if_pos (.inl hlen),
      Buffer.cleared, if_pos hlen, Nat.sub_zero]
    simp
  · rw [List.getD_eq_default _ _ (Nat.le_of_not_lt hlen)]
    by_cases hblock : k < 8 * registers (audio.fifo.take n).length
    · rw [if_pos hblock, if_neg (Nat.not_lt_zero k), if_neg (by omega), if_neg (by omega)]
      simp
    · rw [if_neg hblock, if_pos (.inr (Nat.le_of_not_lt hblock))]
      simp

end AudioSource

/-! ## What a sidebar mixes -/

theorem Sidebar.get_update (sidebar : Sidebar) (audio : AudioSource) (k : Nat) :
    (sidebar.update audio.buffer audio.len).mixerBuffer.get k =
      sidebar.mixerBuffer.get k +
        if k < 8 * registers audio.len then audio.buffer.get k else 0 := by
  rw [Sidebar.update, dif_pos audio.len_le, Buffer.get_combine]
  split_ifs with hk
  · rfl
  · exact (add_zero _).symm

/-- The sums of all participants, one after the other. -/
def updateAll (audios : List (Int × AudioSource)) (sidebar : Sidebar) : Sidebar :=
  audios.foldl (fun sidebar e =>
    if sidebar.hasParticipant e.1 then sidebar.update e.2.buffer e.2.len else sidebar) sidebar

theorem participants_updateAll (audios : List (Int × AudioSource)) (sidebar : Sidebar) :
    (updateAll audios sidebar).participants = sidebar.participants := by
  induction audios generalizing sidebar with
  | nil => rfl
  | cons e audios ih =>
    rw [updateAll, List.foldl_cons, ← updateAll, ih]
    split_ifs
    · rw [Sidebar.update, dif_pos e.2.len_le]
    · rfl

/-- **The sum of a sidebar** is that of the registers of its members. -/
theorem get_updateAll (audios : List (Int × AudioSource)) (sidebar : Sidebar) (k : Nat) :
    (updateAll audios sidebar).mixerBuffer.get k = sidebar.mixerBuffer.get k +
      ((audios.filter fun e => sidebar.hasParticipant e.1).map fun e =>
        if k < 8 * registers e.2.len then e.2.buffer.get k else 0).sum := by
  induction audios generalizing sidebar with
  | nil => simp [updateAll]
  | cons e audios ih =>
    rw [updateAll, List.foldl_cons, ← updateAll, ih, List.filter_cons]
    by_cases hmember : sidebar.hasParticipant e.1
    · have hupdate (id : Int) : (sidebar.update e.2.buffer e.2.len).hasParticipant id =
          sidebar.hasParticipant id := by
        rw [Sidebar.update, dif_pos e.2.len_le]
        rfl
      rw [if_pos hmember, if_pos hmember, Sidebar.get_update, List.map_cons, List.sum_cons,
        add_assoc]
      simp only [hupdate]
    · rw [if_neg hmember, if_neg hmember]

namespace AudioMixer

variable (am : AudioMixer) (n : Nat)

theorem foldl_updateSidebars (audios : List (Int × AudioSource))
    (sidebars : List (Int × Sidebar)) :
    audios.foldl updateSidebars sidebars =
      sidebars.map fun (sid, sidebar) => (sid, updateAll audios sidebar) := by
  induction audios generalizing sidebars with
  | nil => simp [updateAll]
  | cons e audios ih =>
    rw [List.foldl_cons, ih, updateSidebars, List.map_map]
    rfl

theorem lookup_map (f : Sidebar → Sidebar) (sidebars : List (Int × Sidebar)) (sid : Int) :
    (sidebars.map fun (sid, sidebar) => (sid, f sidebar)).lookup sid =
      (sidebars.lookup sid).map f := by
  induction sidebars with
  | nil => rfl
  | cons e sidebars ih =>
    rw [List.map_cons, List.lookup_cons, List.lookup_cons, ih]
    split <;> rfl

theorem sidebarOf_mixed {audio : AudioSource} {sidebar : Sidebar}
    (h : sidebarOf am.sidebars audio = some sidebar) :
    sidebarOf (am.mixed n) audio = some (updateAll (am.sampled n) sidebar.reset) := by
  obtain ⟨sid, hsid, hlookup⟩ := Option.bind_eq_some_iff.1 h
  rw [sidebarOf, hsid, Option.bind_some, mixed, foldl_updateSidebars, lookup_map, lookup_map,
    hlookup]
  rfl

/-- The members of a sidebar. -/
def members (sidebar : Sidebar) : List (Int × AudioSource) :=
  am.audios.filter fun e => sidebar.hasParticipant e.1

theorem get_mixed (sidebar : Sidebar) {k : Nat} (hk : k < mixerBufferSize) :
    (updateAll (am.sampled n) sidebar.reset).mixerBuffer.get k =
      ((am.members sidebar).map fun e => e.2.sample (min n mixerBufferSize) k).sum +
        ((am.members sidebar).map fun e => e.2.residue (min n mixerBufferSize) k).sum := by
  rw [get_updateAll, Sidebar.reset, Buffer.get_silence, zero_add, ← List.sum_map_add, sampled,
    List.filter_map, List.map_map, members]
  congr 1
  refine List.map_congr_left fun e _ => ?_
  exact AudioSource.get_getSamples e.2 (Nat.min_le_right _ _) hk

/-- A round is right: a participant that listens to a sidebar is handed so many samples, each the
sum of those of the other members. -/
def MixesRight : Prop :=
  ∀ id audio sidebar, (id, audio) ∈ am.audios → sidebarOf am.sidebars audio = some sidebar →
    ∃ samples, (id, some samples) ∈ (am.mixAudio n).2 ∧
      samples.length = min n mixerBufferSize ∧
      ∀ k < min n mixerBufferSize, samples.getD k 0 =
        (((am.members sidebar).filter fun e => e.1 ≠ id).map fun e =>
          e.2.sample (min n mixerBufferSize) k).sum

/-- Nothing is left behind the samples of the members of a sidebar that is listened to. -/
def Clean : Prop :=
  ∀ id audio sidebar, (id, audio) ∈ am.audios → sidebarOf am.sidebars audio = some sidebar →
    ∀ k < min n mixerBufferSize,
      ((am.members sidebar).map fun e => e.2.residue (min n mixerBufferSize) k).sum = 0

/-! ## What a participant is handed -/

theorem sum_others (sidebar : Sidebar) {id : Int} {audio : AudioSource}
    (h : (id, audio) ∈ am.audios) (g : Int × AudioSource → SWORD) :
    ((am.members sidebar).map g).sum =
      (((am.members sidebar).filter fun e => e.1 ≠ id).map g).sum +
        if sidebar.hasParticipant id then g (id, audio) else 0 := by
  have key : ∀ l : List (Int × AudioSource), (l.map Prod.fst).Nodup → (id, audio) ∈ l →
      ((l.filter fun e => sidebar.hasParticipant e.1).map g).sum =
        (((l.filter fun e => sidebar.hasParticipant e.1).filter fun e => e.1 ≠ id).map g).sum +
          if sidebar.hasParticipant id then g (id, audio) else 0 := by
    intro l hnodup hmem
    induction l with
    | nil => cases hmem
    | cons e l ih =>
      rw [List.map_cons, List.nodup_cons] at hnodup
      rcases List.mem_cons.1 hmem with rfl | hmem
      · have hothers : (l.filter fun e => sidebar.hasParticipant e.1).filter (fun e => e.1 ≠ id) =
            l.filter fun e => sidebar.hasParticipant e.1 := by
          refine List.filter_eq_self.2 fun e he => ?_
          have hne : e.1 ≠ id := by
            intro heq
            exact hnodup.1 (List.mem_map.2 ⟨e, List.mem_of_mem_filter he, heq⟩)
          simpa using hne
        rw [List.filter_cons]
        by_cases hmember : sidebar.hasParticipant id
        · rw [if_pos hmember, if_pos hmember, List.filter_cons, if_neg (by simp), hothers,
            List.map_cons, List.sum_cons, add_comm]
        · rw [if_neg hmember, if_neg hmember, hothers, add_zero]
      · have hne : e.1 ≠ id := by
          intro heq
          exact hnodup.1 (List.mem_map.2 ⟨(id, audio), hmem, heq.symm⟩)
        rw [List.filter_cons]
        split_ifs with he hid
        · rw [List.filter_cons, if_pos (by simpa using hne), List.map_cons, List.map_cons,
            List.sum_cons, List.sum_cons, ih hnodup.2 hmem, if_pos hid, add_assoc]
        · rw [List.filter_cons, if_pos (by simpa using hne), List.map_cons, List.map_cons,
            List.sum_cons, List.sum_cons, ih hnodup.2 hmem, if_neg hid, add_assoc]
        · rw [ih hnodup.2 hmem, if_pos ‹_›]
        · rw [ih hnodup.2 hmem, if_neg ‹_›]
  exact key am.audios am.nodup_audios h

theorem getD_take {l : List SWORD} {n k : Nat} (hk : k < n) : (l.take n).getD k 0 = l.getD k 0 := by
  rw [List.getD_eq_getElem?_getD, List.getElem?_take_of_lt hk, ← List.getD_eq_getElem?_getD]

theorem get_subtract (audio : AudioSource) (mixed : Buffer) {n : Nat} (hnum : n ≤ mixerBufferSize)
    {k : Nat} (hk : k < n) :
    ((audio.getSamples n hnum).subtract mixed n hnum).get k =
      mixed.get k - audio.sample n k := by
  have hlen := audio.len_getSamples hnum
  have hregisters : (audio.fifo.take n).length ≤ 8 * registers (audio.fifo.take n).length := by
    rw [registers]
    omega
  by_cases hown : k < (audio.fifo.take n).length
  · have hsample := audio.get_getSamples hnum (lt_of_lt_of_le hk hnum)
    rw [hlen, if_pos (by omega), AudioSource.residue, if_pos (.inl hown), add_zero] at hsample
    have hcombine : ((audio.getSamples n hnum).buffer.combine (fun b m => m - b) mixed
        (audio.getSamples n hnum).len (audio.getSamples n hnum).len_le).get k =
        mixed.get k - audio.sample n k := by
      rw [Buffer.get_combine, hlen, if_pos (by omega), hsample]
    rw [AudioSource.subtract]
    split_ifs with hshort
    · rw [Buffer.get_copy, if_pos (by rwa [hlen]), hcombine]
    · exact hcombine
  · have hsample : audio.sample n k = 0 := List.getD_eq_default _ _ (Nat.le_of_not_lt hown)
    have hshort : (audio.getSamples n hnum).len < n := by
      rw [hlen]
      omega
    have hrest : ((mixed.samples.drop (audio.fifo.take n).length).take
        (n - (audio.fifo.take n).length)).length = n - (audio.fifo.take n).length := by
      rw [List.length_take, List.length_drop, mixed.length_samples]
      omega
    rw [AudioSource.subtract, if_pos hshort, Buffer.get_copy, if_neg (by rwa [hlen]), if_pos,
      getD_take (by omega), List.getD_eq_getElem?_getD, List.getElem?_drop,
      ← List.getD_eq_getElem?_getD, hlen, Nat.add_sub_cancel' (Nat.le_of_not_lt hown), hsample]
    · exact (sub_zero _).symm
    · rw [hlen, hrest]
      omega

theorem mem_mixAudio {id : Int} {audio : AudioSource} (h : (id, audio) ∈ am.audios)
    (samples : Option (List SWORD)) :
    (id, samples) ∈ (am.mixAudio n).2 ↔ samples = (output (am.mixed n) (min n mixerBufferSize)
      (Nat.min_le_right _ _)
        (id, audio.getSamples (min n mixerBufferSize) (Nat.min_le_right _ _))).2 := by
  simp only [mixAudio, sampled, List.map_map, List.mem_map, Function.comp_apply, Prod.exists,
    Prod.mk.injEq]
  constructor
  · rintro ⟨id', audio', hmem, rfl, rfl⟩
    obtain ⟨-, rfl⟩ := Prod.mk.inj
      (List.inj_on_of_nodup_map am.nodup_audios hmem h rfl)
    rfl
  · rintro rfl
    exact ⟨id, audio, h, rfl, rfl⟩

theorem output_spec {id : Int} {audio : AudioSource} {sidebar : Sidebar}
    (h : (id, audio) ∈ am.audios) (hsidebar : sidebarOf am.sidebars audio = some sidebar) :
    ∃ samples, (∀ other, (id, some other) ∈ (am.mixAudio n).2 ↔ other = samples) ∧
      samples.length = min n mixerBufferSize ∧
      ∀ k < min n mixerBufferSize, samples.getD k 0 =
        (((am.members sidebar).filter fun e => e.1 ≠ id).map fun e =>
          e.2.sample (min n mixerBufferSize) k).sum +
        ((am.members sidebar).map fun e => e.2.residue (min n mixerBufferSize) k).sum := by
  have hnum : min n mixerBufferSize ≤ mixerBufferSize := Nat.min_le_right _ _
  have hlisten : sidebarOf (am.mixed n) (audio.getSamples _ hnum) =
      some (updateAll (am.sampled n) sidebar.reset) := am.sidebarOf_mixed n hsidebar
  have hmember : (updateAll (am.sampled n) sidebar.reset).hasParticipant id =
      sidebar.hasParticipant id := by
    rw [Sidebar.hasParticipant, participants_updateAll]
    rfl
  have hmixed {k : Nat} (hk : k < min n mixerBufferSize) :=
    am.get_mixed n sidebar (lt_of_lt_of_le hk hnum)
  have hothers (k : Nat) := am.sum_others sidebar h fun e =>
    e.2.sample (min n mixerBufferSize) k
  simp only [mem_mixAudio am n h, output, hlisten, hmember]
  by_cases hown : sidebar.hasParticipant id
  · simp only [if_pos hown]
    refine ⟨_, fun other => Option.some_inj, ?_, fun k hk => ?_⟩
    · rw [List.length_take, Buffer.length_samples]
      omega
    · rw [getD_take hk]
      refine (get_subtract audio _ hnum hk).trans ?_
      rw [hmixed hk, hothers k, if_pos hown, add_right_comm, add_sub_cancel_right]
  · simp only [if_neg hown]
    refine ⟨_, fun other => Option.some_inj, ?_, fun k hk => ?_⟩
    · rw [List.length_take, Buffer.length_samples]
      omega
    · rw [getD_take hk]
      refine (hmixed hk).trans ?_
      rw [hothers k, if_neg hown, add_zero]

theorem clean_of_mixesRight (hright : am.MixesRight n) : am.Clean n := by
  intro id audio sidebar h hsidebar k hk
  obtain ⟨samples, hmem, -, hsum⟩ := hright id audio sidebar h hsidebar
  obtain ⟨samples', hmem', -, hsum'⟩ := am.output_spec n h hsidebar
  obtain rfl := (hmem' samples).1 hmem
  have heq := (hsum k hk).symm.trans (hsum' k hk)
  exact left_eq_add.1 heq

/-- **A round is right exactly when** nothing is left behind the samples of the members of a sidebar
that is listened to. Reference: `audiomixer.cpp:101`. -/
theorem mixesRight_iff : am.MixesRight n ↔ am.Clean n := by
  constructor
  · exact clean_of_mixesRight am n
  · intro hclean id audio sidebar h hsidebar
    obtain ⟨samples, hmem, hlength, hsum⟩ := am.output_spec n h hsidebar
    refine ⟨samples, (hmem samples).2 rfl, hlength, fun k hk => ?_⟩
    rw [hsum k hk, hclean id audio sidebar h hsidebar k hk, add_zero]

/-- A participant with 4089 samples, whose buffer still has the sum of the round before. -/
def staleSource : AudioSource where
  fifo := List.replicate 4089 0
  buffer := ⟨List.replicate mixerBufferSize 1, List.length_replicate⟩

theorem residue_staleSource : staleSource.residue 4096 4095 = 1 := by
  have hlen : (staleSource.fifo.take 4096).length = 4089 := by
    rw [List.length_take, staleSource, List.length_replicate]
    rfl
  have hstale : staleSource.buffer.get 4095 = 1 := by
    rw [Buffer.get, staleSource, List.getD_replicate]
    rw [mixerBufferSize]
    omega
  rw [AudioSource.residue, hlen, hstale]
  rfl

/-- A participant that listens to it. -/
def staleRegister : AudioMixer where
  audios := [(1, staleSource), (2, { sidebar := some 0 })]
  sidebars := [(0, { participants := [1] })]
  nodup_audios := by decide

/-- The last of the stale samples is heard. -/
theorem not_mixesRight_staleRegister : ¬staleRegister.MixesRight 4096 := by
  intro hright
  have hsum := clean_of_mixesRight _ _ hright 2 { sidebar := some 0 } { participants := [1] }
    (List.mem_cons_of_mem _ List.mem_cons_self) rfl 4095 (by decide)
  have hmembers : staleRegister.members { participants := [1] } = [(1, staleSource)] := rfl
  rw [hmembers, List.map_singleton, List.sum_singleton,
    show min 4096 mixerBufferSize = 4096 from rfl, residue_staleSource] at hsum
  exact absurd hsum (by decide)

end AudioMixer

end Audio

end McuMediaServer

namespace ShaderLayout.Text.Line

def isBreak (c : Char) : Bool :=
  let n := c.toNat
  (0xa ≤ n && n ≤ 0xd) || (0x1c ≤ n && n ≤ 0x1e) || n == 0x85 || n == 0x2028 || n == 0x2029

def splitFirst : List Char → List Char × List Char
  | [] => ([], [])
  | '\r' :: '\n' :: r => ([], r)
  | c :: r =>
    if isBreak c then ([], r)
    else
      let (line, rest) := splitFirst r
      (c :: line, rest)

theorem splitFirst_length (c : Char) (r : List Char) : (splitFirst (c :: r)).2.length < (c :: r).length := by
  induction r generalizing c with
  | nil => by_cases h : isBreak c <;> simp [splitFirst, h]
  | cons d r ih =>
    rw [splitFirst.eq_def]
    split
    · simp
    · next h =>
      cases h
      simp only [List.length_cons]
      omega
    · next c' r' _ h =>
      cases h
      split
      · simp
      · have := ih d
        simp only [List.length_cons] at this ⊢
        omega

def split : List Char → List (List Char)
  | [] => []
  | c :: r => (splitFirst (c :: r)).1 :: split (splitFirst (c :: r)).2
termination_by s => s.length
decreasing_by exact splitFirst_length c r

def unify : List Char → List Char
  | [] => []
  | '\r' :: '\n' :: r => '\n' :: unify r
  | c :: r => (if c = '\r' then '\n' else c) :: unify r

end ShaderLayout.Text.Line

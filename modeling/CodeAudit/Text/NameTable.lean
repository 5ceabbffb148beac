/-!
# Words that names of characters start with

The table that `CodeAudit.Text.CharacterName` reads, coded as `CodeAudit.Text.Tables` describes.
-/

namespace CodeAudit.Text

/-- The first words of the names of characters in version 14 of the Unicode character database, with a blank where more
words follow, and the names that start with `NO` and `NOT`. -/
def nameTable : String :=
  "w~J>XAtxgqr$0Gte3lM=.VTbU_qGP+sBGg^(<uf3Efozj6LFi<2sKst7jBhHOs^_FBnzux>o,kJdgUbDYiDd_%grwWl;m3hDr;C8+h2ZSTZ><mn=mc)0uH!pYdfg:_t;OkDWJZg5yA=heN00oSTEcQg~^&5~US2<LYihhS4k^)Qtdu]B=LRXSqy5%|+AADSzTUUKQym*.u6n.Nd1<&pE;]75pZHq&VmPTA)?.,8ZFAkM2h:dFi5G;T+?VYAQ[9?:mTIK1PbZqnuN7X9wPH2uO=N!&+:cDSf,&+r1w(bN(Jy*
   uIYE?3axDh;Wp&j=H7V3WD%!>WSLyqt!XxxnTo,$F:n.7cnaA9DXOh62d^I86I!7=YPhS,GnjD!anNh|pzecR,Ws:ZJr]Iv%*>A0yd>Dna!Q;*+=%C93P:vEVI]>v0z+6QsFES6,(S1BriuMvx8;%]lXVRuger=Qy=UN7*|uV?kQi4x]7|B=njxIUoXNN|fR)qr3FT:74fkRM<NrtuiPpT(t7d^LTbui))R[2%P%UEf]NV&$9X[nQ*6S(B]4LD$pqoGDy_824;O!(vx(Iapmdw6z<|T$C?!h*X9mv1I)z%vo
   K1e40|Y4dYJ.kW0o*pPA16]lu&9lr(g9y>Jkm^[_$ykLA>2~PB22zHdE+k8V;A,=.G*vfH^$0LV=l%k8.Q:=Ng56$c08x|wS.7JU:qzgv|]8;%9;T1na~5C<Zd&RQ<GvXDj$qk_LkwwAg2^,+p&Zg[5b;mcI~nRJ|JG0&2Y,Y.PO&1C)ThBiT0=~%88joH81<!k=LHftCG0QWwm_?EI4EXr)bshy%gD49?0OF_w$qB[qAO<%VfHR+mVoh_qSf9W(6]TU6|+?2TG8J8;]$,dkf~H6(ceVLiOIr*+%LZ+*%,1W
   ,$Q,,U]vt!!+KFINAFp$E]*w_^G>0Z??MJhRe2c%ugDo+yq2_vr^?ONzQBNnlG,Cx3NCi5tQR8((iC%:T$uVi>eTQcboI>R83d9n_1A4h8TqCp5([Hkac,Iqr2;g5$U7Eg8Vis2A1kKnGXaSKjuVd?vGY02tuw)TF69oJvbm$d)PP&c!5>mBPhc^XX&oyg=!aYRCmQT~=HZp?n18yeZ^W<QibYnvO=?VDmC[LVFn_)Ss98m:TDLqZKlcb;Ga](eCrZde?>5k^e(Uw$ujpQcUTNM32H]E)RjuQ.Yk~m69^hTo
   c9+JM!gAHXXa)iP9jCp^qv,i53e4S|dZI8o~Q4DnH5ClnCf>WH7,+Rc8xGUE9[>_Ts~SBY%AoOh$I&9c4Aq;tRyZsl1!rm[ZDm%h)crqGj0]71Q[:w]wULSw34eHFXpbT~JPkOXfZ|JDVl]_?2a192dj:i%,r2tkSsak5oRXm2P.2dgU6C]*sqlGia.IJs|a40GZ20)PHT4dF+3whU9&vkmz1rNPD(,LtBQoF;%>adpa>g&zjtN!Tu],55^i6;V~%Oi,N,hA>ru]:vSRN7K:D;Yl,E;SdNKf2kybTAcNC!lt
   DY4;s6;BAH982b7$LneLOhws!VbuMX68=Aw,lX9!0bQIQ*7<7xBM$nQKjq:q3vz_lhK8wSI~1wNOo5:9KAGU4Z;$GLTPYLPO~>iaLZl9XQ+1BRZ[&fRbt(t94JDGZZ5TfL[P|Mbx0O!t>aD0nB|1GvoFE&M+iV,g3;D%_7.^mCmcq.^ZO9dxpnD5Rt$?ZdrUCU]k<foquw9TcI!cikR+<S*S,U[C72J$.o?I%Zt*lXpXHpWK4Q93BOdcRp|G+zS,F6~Y|in(GjJ?G=wb:,2ciTlK=K(Zi6LkGg1Sdj,L[|gU
   07n|0IJV~Qf%W5ej!5oyWhQ%L8)xFmeKiz*~%VHHm0d|4b[zA1cqMWEM2?^N&G9jx.v|~J;,]IrfI%a?Y?r]M(KN?|&5uk?EnDVW$(RNT09=+l&nnMy?S&~uvU^bm^dJ*[zQU:i|_cumYe!jD5OArU<bhy|rPnn*l31El1Yso<ulV,Z~[FWcCOQ=N&Yo|]PU!>kGLfS+zm8GB*F^9i5~BonkGg]DPn%qT=?uCAevbom,h96YB.AAIFN=g3xZi?(~>uV3Xq_j+xv%B4~Sx$n[q3D>5N1ql1NmW5P*:+:?k)3t
   ZkWpZOl*PVg]HS.Hd3uSKTdOI%A)y1dx_7+J9|CNl2_Lep_*R6Cg*HOG<=3?[mh2I7TDiiJ+mJ~ikA_4F?&AlwevZ7UI41p]KWD[RI~b!xBr48VjA_Y(BkeqaD6x9Ng<S;mF9AFXbMqPTy_wu<!KWJCI&.6Y$Jg0f,VDlxJ1Mto$WS3NzFVJb6.oYOw(HJ6DY9s[E%c%XCXUbHT+=cwrI7eDFLy?P!gb$Na[8uu!1yg.Z,><c3ct_J>wEPKKulbyeQ)6+xErJA+7_c0Qi(%e>7d;6qJUcrGPsl1y%I]<w!uz
   +X&9b^AvNP4hI;g+7o]Fz<;6zNGXiXqJA%vAz=K|!eYAWr^l7DIMI(Vm:K)o9Nk5lC4MzftGxnDxbD;p(|q0(R24f!1ml<C?,]Y4.Y_Qmiz2bS9!JpG?4Oopfp]~81uEQM>~v30v97QIRzY,H_Boze[XY7t,4,%kIA(ZfxO:87^^5YC7zTb%v*LV%0;<wbOYOXQ&o7v<rfj4M*s^nh8CC[Z>|:368Jzhbw1r~;CFt)T>gUY!R=xNg>D2C+y<NHe8UPoZyHF=5(vul0(^m2s,Mm+1P<!Eqtq)wLZQ;P|(6Kh^
   &rkP2,FI9D6bT0v7saQ&t_JZv+TX1!,R0vT(n>T1ZY9_hYY>at)Z:BN>9:uUyo?5^=;715e2Bc*&,gbVpPKSLgyRZ^[GmFD&5%F5$R5AO=!42h&lchY2]m6mR$k(7rTjYt5i!gsSTG40fzlr5qY~4oIeYq^Uh0!,MXa~pa3MD6FA2BIvdE&tdTAx)9gAvWO?:$Gm9!gh)BDH,)p4rBfJF06_wJ=4B9dUj7+lr;]%uI1Dc;&IFSABSE]$p<iRG1=Oq0gO.ljr&tvFCrZ!Llt3^e.CtN|vR,Op9h!eCc3!vnJf
   W7vNw!sD;puhvhSYC*q].gpBm>8gm;,Ncv9jelKl?L9Xh7BVC)7$Y)ER:La67o~usnPAoHq4ErL[M<DIM(<5iLS5jsv,[:]UX,r$=5O,Vo)PySc>vg4J9;pjxzk[Sc!k^<[p27CrXZ4at)>]0%j(+9)Dg&2?aOiBL:LHzwZNGOXHCjvzd&cpmQvl2kx.wU_XftF0:whkJL^=.8Qd>nF:EMbWP8yqW1AO:WJB!1N9.Cy$$;oSR8<1_U~?1:I9yPc6x6WT3F7J^3TO,Hi7]]AQbBe4ZqXC4,vR30U]vo9FbZBd
   NWHx=ar~hGQa3=3x%AzVd_ltDC+AI?wWc,r+eEO8L!,SE5n!cE!ERb~Cbm3_PSfrZ2mQq9DbcPI%7~>yK7Q2Lc*3IrGFWMJf]1:nK)^h7+6tC^eDV!!jKOq+%+Nz+1L[!:=J:*^]it2mL<efKib1;*bylLiaxe[E!lO[k<jmCS]i8pl$~0V2&^cytpJz7j6]Ajx)7=Dzdd%dx?pCuIw_<D7~x0I;:Ey|x:6fr!5QtDD6Xl?5]>a,o2qoWRI),?b,mdC;c^)G++ow3D(Zy0BE8^5G|~zm).N=+0OO0WiE%6SX
   eEHYr<A.iKMaFR%.NRIx:WopqoxwOhY2OzfU5$c.F~Fa2h|9zfi|9sGgm&pqUQ,z>YeTlu)EJBdOghJ*.To,Y>2Xlc*v8b|TD]%Xg6RJF>YxxGX1gKTV(9(jpcqVwv~8>YJ:SpBK0hUs!q&61zH7Ts2<hffms,LeVeh!BR6GDPGO3!U+G.m^6~eJ.v$=_4h;i:~.hN,g2=IO40?,+<R5iM_G(:sdnXB(?Sy)QvRkI4&+LUo%a0LQ~^A6i=UQx3;blYEqC3jEkr^riM?4S,ocY5F9NirX1q<FJmzctss=cwSE
   97I.XFgq^.G._Ssyb(nY7xNrL;|Zz3kJ>)_^00&VVP.H3c~)Q*z|gGrU&)udF?yy*&<NkI.bC1JekEy(uJv(t&*gU~!~:_N0JnPZF3ycq&XfN]%!xs7L$ZqH:cGnjys2?<V3&3m&iE?>^zA|~58be<Crynbej11QhD!93.6v0!YYW>WHg3RrfKG!!BgDcEh9fj4|x[.KPM3Ub)CG?jrJ6Xz~|0YuF^*^^+izmS9iT0|<jHhYtXk54*U6z$bscvW^;G$V*VEBB+L,mwE%)&VG_g,xt2YScH~Cnjcixxd4l2hh
   ]uWBV9.OkqVGVVS>xw1wJpiB)N7xtqeHk=*aWztKcBkL.emMXY~QO..o.?N6J:IGdIX^a]AIW:4]sr$C|w*sMrZgn0(l+ac?hgakF_x:1zdW<qLeQb~W6zI<+A(dfM=h:uZAtCJq:Y[45(1?Jb?(F*%QWK2yPI%WJ|v3K^?cdLddyZCt]6j0ToWvRqkp6xlAmFZj~:|6P[QO6tdte[6pX1fa1H%L=s0S$i(+3E;)3V7>dfxt>W=Sv~IuGM(zz1DijNzn!qq1(*8Q9w|7.v*VRl8W_Vq&6DRg$]P1^%NS?fC?
   Jx~Y076~2MVA7pgR0?;gWeLY)?mqTipoTCOeU)haro,9O(~9CG[>=q>Q+]Hi+?N[FMbXJqv_B=F]1!HWcr2pG6sdOf2$u]f>XghiG?oIxvp;a9|2oW4tJA%GlNtZYM<>s>!ux7+=2J%0wd;juWbayOM5Rkgk>)jfM)jHj6o!b=$^pc2R31!UV)%^!hry0l?b8v]LdvsHD9.w(2C;tTB;I5_&Icw$E!XIwrqCyZPqxD>n94]y:2lu2Z,rG8Y]u]R3&y4d+9sNaww2$rcAe!iW!d3sR!9o=QL2]IKG6>f_xO5Y
   qV!F=jgF:H4$E<Z$t5D<c,BYRt_%wf:BXVM9QP*jj3^JsC*xszBM1,Uin:qas?xu2oDwStrM+CuYcrwYOwv4p0+O~+|rpreiXIBU.buv,Bk=:qB6qMZdAC~7E%_,p8z:M5J.nIU66R6%10RrbTl$1eOYppgIzA?nf95e5^(=k<&lkO]JPz:nmd&DuLS<PO.hl[UO4zP&+nO<LdLdACYJw2spy]>|QVwlF;.!tD=xtJ)JJinc&ZB32Sp$&W1Iq+spi:QLo|Tz917?8=x_r8HBY<v>elytzIt*E+?I=<biMy,q
   nz<hUxb>Uz]Fu;9]wja9fFyEN2.qY6q1B2;2,Vh)F<xSA1XMw6AKF)fykPnXM[hSegt_ddMH,YZ0x7n~<PN+IK,pBW)CT4PLngiCMbo~To.JaDkj(dj*HQoi.kwpL]qmH<_4y!q5;54NST?hUpaZN+m;|Y6u80,yt>)Cd99yWSeKbb7+~_$d.>$q<YhQlE3*G$|QVN=%C3&B[BF;HqIcd>ZcDWF>?LIj?FttRXcHIPr7W(m:yg[6wBV!WO7~ULMiLMu]E[;:m(Dghbs_kCQ_:yw>zv*4rkb7oX5jG^EahT%w
   4,)(85~tA6oc|yy6tdvJBhdF!t5s,%PMROkTDK7,.|h?_VRI;qrglUEDyqFnZ%2+rCF>k|6U!hYrlNx9JQ8~SI5xf![?+)9YDLQ;e?[it2x[M.xbewFZL*X=j<MM~avq<]~ar$nm?PD9+BMSy17%ZUQQU~4pRt8.6?QM_f7L9kzbOY+<~QbW)o5W*4~jF0Od+8FMpN|+^vf([o*F]We7qz5o4bzO^ZJ0?!w7cpAQy=4m39k=g|SROyyz!<))>0(y^u%qRZ!g^[upjQuVsWqs(;YvAKh_|or<oX^&<uL1I[pX
   cMV)fgg*)ia~Vw(Y^>dsEyS[0*RTZv+)UK!CI:4ltB]cjhLk?P6nD*3293%e,)9Oy2,ak3FNpU<!&nGZmesnvstL&p4XbRXo$(|Y=N%)9r;dVvqo61VFV*oNuls+a34,n6%%U.c+?JJLBl%AKT>v(s$0elGqcvz$~!ta|AGG%E7ZKq$hu$,o5W7Yn4Gk>Y?Yi^ZcpvC$+vxWLfpEII]Qdd9OKG?2Yz:(,Ms.Q(,PwYG+C:7Y9>Kv<l$mRh6Yj<|2x<q4<Iw6cy[iDCBX_*;nzm<?=:SUNPJRG$KeKG%Ne07w
   ZGn^?%V:]<=!B_3s"

end CodeAudit.Text

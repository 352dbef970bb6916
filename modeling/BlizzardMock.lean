import BlizzardMock.Forge.CheckLaws
import BlizzardMock.Forge.MergeLaws
import BlizzardMock.Forge.MiddlewareLaws
import BlizzardMock.Forge.PullLaws
import BlizzardMock.Harness.OpenCode2.ChannelLaws
import BlizzardMock.Harness.OpenCode2.CursorLaws
import BlizzardMock.Harness.OpenCode2.PermitLaws
import BlizzardMock.Harness.OpenCode2.ProgressLaws
import BlizzardMock.Harness.OpenCode2.RequestLaws
import BlizzardMock.Harness.OpenCode2.RuleLaws
import BlizzardMock.Harness.OpenCode2.StoreLaws
import BlizzardMock.Harness.OpenCode2.TreeLaws
import BlizzardMock.Harness.SplitLaws
import BlizzardMock.LeverLaws
import BlizzardMock.MockHub.ClaimLaws
import BlizzardMock.MockHub.DeliveryLaws
import BlizzardMock.MockHub.EndLaws
import BlizzardMock.MockHub.GrantLaws
import BlizzardMock.MockHub.HostLaws
import BlizzardMock.MockHub.MatchingLaws
import BlizzardMock.MockHub.QuestionLaws
import BlizzardMock.MockHub.ReadbackLaws
import BlizzardMock.MockHub.RepeatLaws
import BlizzardMock.MockHub.ReportLaws
import BlizzardMock.MockHub.ResetLaws
import BlizzardMock.MockHub.RetryLaws
import BlizzardMock.MockHub.RouteLaws
import BlizzardMock.MockHub.SelectLaws
import BlizzardMock.MockHub.TenantLaws
import BlizzardMock.MockHub.TokenLaws
import BlizzardMock.MockHub.UnarmedLaws
import BlizzardMock.MockRunner.SequenceLaws
import BlizzardMock.MockHub.FootingLaws
import BlizzardMock.MockHub.DriveLaws
import BlizzardMock.MockRunner.TenureLaws
import BlizzardMock.Data.Digits
import BlizzardMock.IdLaws
import BlizzardMock.Harness.OpenCode2.Records
import BlizzardMock.MockHub.Service.Garden
import BlizzardMock.Python.IntText
import BlizzardMock.MockHub.GardenLaws
import BlizzardMock.MockHub.StatusLaws
import BlizzardMock.Harness.OpenCode2.Shell
import BlizzardMock.Harness.OpenCode2.ShellLaws
import BlizzardMock.MockData.ReflectedStore
import BlizzardMock.MockData.SeqLaws
import BlizzardMock.Python.Url
import BlizzardMock.Python.UrlLaws
import BlizzardMock.Forge.Listing
import BlizzardMock.Forge.ListingLaws
import BlizzardMock.Forge.LinkLaws
import BlizzardMock.Forge.PagingLaws
import BlizzardMock.Data.Alternation
import BlizzardMock.Harness.TagLaws
import BlizzardMock.Data.Versions
import BlizzardMock.Harness.Transcript
import BlizzardMock.Harness.TranscriptLaws
import BlizzardMock.Forge.RulesetLaws
import BlizzardMock.Forge.ThreadLaws
import BlizzardMock.Idp.SignInLaws
import BlizzardMock.MockRunner.RefusalLaws
import BlizzardMock.Harness.Codex.StreamLaws
import BlizzardMock.MockData.ResetLaws
import BlizzardMock.MockData.WriteLaws
import BlizzardMock.Harness.RunLaws
import BlizzardMock.MockHub.WalkLaws
import BlizzardMock.Data.Greedy
import BlizzardMock.Forge.Graphql
import BlizzardMock.Forge.GraphqlLaws
